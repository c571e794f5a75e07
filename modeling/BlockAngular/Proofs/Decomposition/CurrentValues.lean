import BlockAngular.Proofs.Affine.Steady
import BlockAngular.Proofs.Decomposition.Attributes
import BlockAngular.Proofs.Decomposition.Requirements
import BlockAngular.Proofs.Model.Values

/-! # Current values

A decomposition hands the values of variables on to their images and does not look at them,
unless it meets a power whose base is fixed by a factor of zero. Two models that differ in
values, and in which variables are fixed, are refused for the same reason or have the same
decomposition up to the values of the images.
-/

namespace BlockAngular

open Decomposition

/-- Two models in which the bases of powers come out the same, in all that is decomposed. -/
structure Model.SteadyPowers (m m' : Model) : Prop where
  constraints : ∀ h ∈ m.constraints.map (·.2), ∀ c, m.constraintAt h = .ok c →
    c.body.HasSteadyPowers (World.freeReading [m]) (World.freeReading [m'])
  objective : ∀ o, m.objectiveInForce? = .ok (some o) →
    o.2.body.HasSteadyPowers (World.freeReading [m]) (World.freeReading [m'])

namespace Model

variable {m m' : Model}

theorem unvalued_bounded? (v : Variable) :
    v.unvalued.bounded? = v.bounded?.map Variable.unvalued := by
  have bounds : v.unvalued.lowerBound = v.lowerBound ∧ v.unvalued.upperBound = v.upperBound :=
    ⟨rfl, rfl⟩
  simp only [Variable.bounded?, bounds.1, bounds.2]
  cases v.lowerBound with
  | error => rfl
  | ok lower => cases v.upperBound <;> rfl

namespace Alike

theorem world_parameter (alike : m.Alike m') (h : Handle) :
    World.parameter [m'] h = World.parameter [m] h := by
  simp only [World.parameter, World.model?, List.find?_cons, List.find?_nil, alike.id_eq]
  cases m.id == h.model with
  | true => exact alike.parameter h
  | false => rfl

theorem freeReading (alike : m.Alike m') :
    (World.freeReading [m]).Alike (World.freeReading [m']) where
  parameter := alike.world_parameter
  free _ := rfl
  free' _ := rfl

theorem formOf (alike : m.Alike m') {e : Expression}
    (steady : e.HasSteadyPowers (World.freeReading [m]) (World.freeReading [m'])) (context : String) :
    m'.formOf context e = m.formOf context e := by
  have itself : m'.itself? = m.itself? := by
    unfold Model.itself?
    rw [alike.vars]
  rw [Model.formOf_eq, Model.formOf_eq, itself, Expression.mapped_steady alike.freeReading context steady]

theorem readConstraint (alike : m.Alike m') (wf : m.WellFormed) (steady : m.SteadyPowers m')
    {key : Key} (hk : key ∈ m.constraintKeys) : m'.readConstraint key = m.readConstraint key := by
  obtain ⟨⟨_, h⟩, hc, rfl⟩ := List.mem_map.mp hk
  have preimage := Model.preimageOf_of_mem_constraints wf hc
  simp only [Model.readConstraint, alike.preimageOf, alike.constraintAt, alike.indexOf, alike.nameOf]
  rw [preimage]
  cases there : m.constraintAt h with
  | error e => rfl
  | ok c =>
      have formed := alike.formOf (steady.constraints h (List.mem_map_of_mem (f := (·.2)) hc) c there)
      have limited := Limits.ofConstraint?_of_plain alike.world_parameter
        (r := World.freeReading [m]) (s := World.freeReading [m'])
        (wf.plainSides (Model.constraintAt_ok there))
      simp only [Except.mapError, bind, Except.bind, formed, limited]

theorem uses (alike : m.Alike m') : m'.uses = m.uses := by
  funext name
  cases name <;> simp [Model.uses, alike.hasName]

theorem hasImages (alike : m.Alike m') {vars : Registry} (images : vars.HasImages m) :
    vars.HasImages m' :=
  ⟨images.faithful, alike.vars ▸ images.known⟩

end Alike

/-- Whether a variable can have an image does not depend on its value. -/
theorem boundsDemand_unvalued (m : Model) (key : Key) :
    m.unvalued.boundsDemand key = m.boundsDemand key := by
  have alike : m.Alike m.unvalued := ⟨rfl, unvalued_outline m⟩
  simp only [boundsDemand, alike.preimageOf, variableAt, unvalued_variableOf?]
  cases m.variableOf? (m.preimageOf key) with
  | none => rfl
  | some v =>
      have bounds : v.unvalued.lowerBound = v.lowerBound ∧ v.unvalued.upperBound = v.upperBound :=
        ⟨rfl, rfl⟩
      simp only [Option.map_some, Except.mapError, bind, Except.bind, Attributes.ofVariable?, bounds]
      cases v.lowerBound with
      | error => rfl
      | ok lower => cases v.upperBound <;> rfl

theorem boundedVariable_unvalued (m : Model) (key : Key) :
    m.unvalued.boundedVariable key = (m.boundedVariable key).map Variable.unvalued := by
  have alike : m.Alike m.unvalued := ⟨rfl, unvalued_outline m⟩
  simp only [boundedVariable, alike.preimageOf, unvalued_variableOf?]
  cases m.variableOf? (m.preimageOf key) with
  | none => rfl
  | some v =>
      simp only [Option.map_some, Option.bind_some, unvalued_bounded?]
      cases v.bounded? <;> rfl

theorem boundedContent_unvalued (m : Model) (name : String) (indices : List (List Value)) :
    (m.boundedContent name indices).unvalued = m.unvalued.boundedContent name indices := by
  simp only [boundedContent, Content.unvalued, Family.map, Family.tabulate, List.map_map,
    boundedVariable_unvalued]
  rfl

end Model

/-- What is determined by the members of one list, one by one, is one list. -/
theorem forall₂_unique {α β : Type} {R R' : α → β → Prop} {as : List α} {bs bs' : List β}
    (unique : ∀ a ∈ as, ∀ b b', R a b → R' a b' → b' = b) (h : List.Forall₂ R as bs)
    (h' : List.Forall₂ R' as bs') : bs' = bs := by
  induction h generalizing bs' with
  | nil => cases h'; rfl
  | cons first _ ih =>
      cases h' with
      | cons first' rest =>
          rw [unique _ List.mem_cons_self _ _ first first',
            ih (fun a ha => unique a (List.mem_cons_of_mem _ ha)) rest]

namespace Decomposition

/-- A model that is built, without values. -/
theorem Built.unvalued_eq {first : Nat} {b : Block × Nat} {contents : List (String × Content)}
    {t : Block × Model} (built : Built first b contents t.2) (named : t.1 = b.1) :
    (t.1, t.2.unvalued) = (b.1, ⟨first + b.2, modelName b.1,
      (contents.map fun (name, c) => (name, c.unvalued)).map fun (name, c) => ⟨name, c, []⟩⟩) := by
  rw [named, Model.unvalued, ← built.contents, built.id, built.name]
  simp [Model.contents, Function.comp_def]

variable {m m' : Model} {classify : Classify} {config : Config}

/-- What a decomposition asks for is the same. -/
theorem requirements_alike (regular : m.Regular) (same : m.unvalued = m'.unvalued)
    (steady : m.SteadyPowers m') : Verdict.all (requirements m' classify config) =
      .all (requirements m classify config) := by
  have alike := Model.alike_of_unvalued same
  have bounds : m'.boundsDemand = m.boundsDemand := by
    funext key
    rw [← Model.boundsDemand_unvalued, ← same, Model.boundsDemand_unvalued]
  have answers : m'.answers classify = m.answers classify := by
    unfold Model.answers Model.variableKeys Model.constraintKeys
    rw [alike.vars, alike.constraints]
  simp only [requirements, alike.assignment, answers, Verdict.all_append]
  cases assigned : m.assignment classify with
  | error e => simp only [Except.toOption, Option.map_none, Option.getD_none]
  | ok a =>
      simp only [Except.toOption, Option.map_some, Option.getD_some, assignedDemands, alike.vars,
        alike.constraints, alike.objectiveInForce?, Verdict.all_cons]
      cases hashable : Value.allHashable (KeyTable.ids a.vars ++ KeyTable.ids a.constraints) with
      | false =>
          have refused : ∀ (e : Error) (rest : Unit → Verdict),
              (Verdict.require (false = true) e >>= rest) = .error e := fun _ _ => rfl
          simp only [refused]
      | true =>
          have sound := Model.assignment_sound regular.toWellFormed assigned hashable
          cases inForce : m.objectiveInForce? with
          | error e => simp only [Option.map_none, Option.getD_none]
          | ok own =>
              simp only [Option.map_some, Option.getD_some]
              have clashes : clashDemands m' config own = clashDemands m config own := by
                simp only [clashDemands, alike.uses]
              have variables_ : variableDemands m' (.ofAssignment a) =
                  variableDemands m (.ofAssignment a) := by
                simp only [variableDemands, bounds]
              have constraints_ : constraintDemands m' (.ofAssignment a) =
                  constraintDemands m (.ofAssignment a) := by
                refine List.flatMap_congr fun block _ => List.flatMap_congr fun entry he => ?_
                have read : ∀ row ∈ Value.sortIndices entry.2,
                    m'.readConstraint ⟨entry.1, row⟩ = m.readConstraint ⟨entry.1, row⟩ := fun row hr =>
                  alike.readConstraint regular.toWellFormed steady
                    (Partition.mem_constraintKeys assigned sound (Slice.mem_keys_of_mem_sorted he hr))
                simp only [Model.constraintDemands, Model.limitsDemand]
                refine congrArg₂ _ (List.map_congr_left fun row hr => ?_)
                  (List.map_congr_left fun row hr => ?_)
                · rw [read row hr]
                · rw [read row hr]
              have objective_ : objectiveDemands m' own = objectiveDemands m own := by
                cases own with
                | none => rfl
                | some o => simp only [objectiveDemands, alike.formOf (steady.objective o inForce)]
              simp only [remainingDemands, clashes, variables_, constraints_, objective_]

/-- A constraint arrives at a block with the same body and the same limits. -/
theorem transitOf_alike (wf : m.WellFormed) (alike : m.Alike m') (steady : m.SteadyPowers m')
    {vars : Registry} (images : vars.HasImages m) (block : Block) {key : Key}
    (hk : key ∈ m.constraintKeys) : transitOf (imageReading m' vars) vars block m' key =
      transitOf (imageReading m vars) vars block m key := by
  have arrived : m'.transitTo vars block key = m.transitTo vars block key := by
    unfold Model.transitTo
    rw [alike.preimageOf]
  rw [transitOf_eq wf images, transitOf_eq (alike.wellFormed wf) (alike.hasImages images), arrived,
    alike.readConstraint wf steady hk]

theorem mapObjective_alike (alike : m.Alike m') (steady : m.SteadyPowers m') {vars : Registry}
    (images : vars.HasImages m) {own : Option (Handle × Objective)}
    (inForce : m.objectiveInForce? = .ok own) :
    mapObjective m' vars own = mapObjective m vars own := by
  cases own with
  | none => rfl
  | some o =>
      simp only [mapObjective, Model.mapped_eq_formOf images,
        Model.mapped_eq_formOf (alike.hasImages images), alike.formOf (steady.objective o inForce)]

end Decomposition

/-- A decomposition without the values of the variables. -/
def Reformulation.unvalued (r : Reformulation) : Reformulation :=
  { r with
    master := r.master.unvalued
    subproblems := r.subproblems.map fun s => { s with model := s.model.unvalued } }

namespace Reformulation.Trace

variable {first : Nat} {m m' : Model} {classify : Classify} {config : Config} {r r' : Reformulation}

section TwoRuns

variable (h : r.Trace first m classify config) (h' : r'.Trace first m' classify config)
include h h'

theorem alike_assignment (alike : m.Alike m') : r'.assignment = r.assignment ∧
    r'.partition = r.partition ∧ r'.ids = r.ids := by
  have assignment : r'.assignment = r.assignment :=
    Except.ok.inj (h'.assigned.symm.trans ((alike.assignment classify).trans h.assigned))
  have partition : r'.partition = r.partition := by
    rw [h'.partition_eq, assignment, h.partition_eq]
  exact ⟨assignment, partition, by rw [h'.ids_eq, partition, h.ids_eq]⟩

theorem alike_registries (alike : m.Alike m') :
    r'.vars = r.vars ∧ r'.constraints = r.constraints := by
  obtain ⟨-, partition, ids⟩ := h.alike_assignment h' alike
  have registrations : m'.registrations = m.registrations := by
    funext id block places
    simp only [Model.registrations, alike.preimageOf]
  have vars := h'.vars
  have constraints := h'.constraints
  rw [partition, ids, registrations] at vars constraints
  exact ⟨h.vars.unique vars, h.constraints.unique constraints⟩

theorem alike_objective (wf : m.WellFormed) (alike : m.Alike m') (steady : m.SteadyPowers m') :
    r'.objective = r.objective := by
  obtain ⟨own, inForce, mapped⟩ := h.objective
  obtain ⟨own', inForce', mapped'⟩ := h'.objective
  rw [alike.objectiveInForce?, inForce] at inForce'
  obtain rfl := Except.ok.inj inForce'
  have images := hasImages_of_covers wf h.assigned h.vars_covers
  rw [(h.alike_registries h' alike).1, mapObjective_alike alike steady images inForce, mapped] at mapped'
  exact (Except.ok.inj mapped').symm

theorem alike_transit (wf : m.WellFormed) (alike : m.Alike m') (steady : m.SteadyPowers m')
    {block : Block} {key : Key} (hk : key ∈ (r.partition.constraintsOf block).keys) :
    transitOf (imageReading m' r'.vars) r'.vars block m' key =
      transitOf (imageReading m r.vars) r.vars block m key := by
  rw [h.partition_eq] at hk
  rw [(h.alike_registries h' alike).1]
  exact transitOf_alike wf alike steady (hasImages_of_covers wf h.assigned h.vars_covers) block
    (Partition.mem_constraintKeys h.assigned h.sound hk)

theorem alike_transfers (wf : m.WellFormed) (alike : m.Alike m') (steady : m.SteadyPowers m') :
    r'.transfers = r.transfers := by
  obtain ⟨-, partition, ids⟩ := h.alike_assignment h' alike
  have transfers := h'.transfers
  rw [partition, ids] at transfers
  refine forall₂_unique (fun b _ t t' moved moved' => Prod.ext (moved'.1.trans moved.1.symm)
    (forall₂_unique (fun place hp t t' => ?_) moved.2 moved'.2)) h.transfers transfers
  rintro ⟨transit, arrived, rfl⟩ ⟨transit', arrived', rfl⟩
  have hk := (Slice.places_keys_perm _).mem_iff.mp (List.mem_map_of_mem (f := (·.1)) hp)
  rw [h.alike_transit h' wf alike steady hk, arrived] at arrived'
  rw [Except.ok.inj arrived']

/-- What the targets contain is the same up to the values of the variables. -/
theorem alike_contents (wf : m.WellFormed) (same : m.unvalued = m'.unvalued)
    (steady : m.SteadyPowers m') (block : Block) :
    (r'.finalContents m' config block).map (fun (name, c) => (name, c.unvalued)) =
      (r.finalContents m config block).map (fun (name, c) => (name, c.unvalued)) := by
  have alike := Model.alike_of_unvalued same
  obtain ⟨-, partition, ids⟩ := h.alike_assignment h' alike
  have vars := (h.alike_registries h' alike).1
  have constraints : constraintContents r.partition r.vars m' block =
      constraintContents r.partition r.vars m block := by
    refine List.map_congr_left fun entry he => congrArg (Prod.mk entry.1) ?_
    refine congrArg (Content.constraints true) (congrArg (Family.mk _) ?_)
    refine List.map_congr_left fun row hr => congrArg (Prod.mk _) ?_
    have arrived := h.alike_transit h' wf alike steady (Slice.mem_keys_of_mem_sorted he hr)
    rw [vars] at arrived
    simp only [imageConstraint, arrived]
  simp only [finalContents, List.map_append, h.alike_objective h' wf alike steady, vars, ids,
    partition, constraints, List.map_map]
  refine congrArg₂ _ (congrArg₂ _ (congrArg₂ _ ?_ rfl) rfl) rfl
  refine List.map_congr_left fun entry _ => congrArg (Prod.mk entry.1) ?_
  rw [Model.boundedContent_unvalued, Model.boundedContent_unvalued, same]

theorem alike_targets (wf : m.WellFormed) (same : m.unvalued = m'.unvalued)
    (steady : m.SteadyPowers m') : r'.targets.map (fun t => (t.1, t.2.unvalued)) =
      r.targets.map (fun t => (t.1, t.2.unvalued)) := by
  have alike := Model.alike_of_unvalued same
  have built := h'.targets_built (alike.wellFormed wf)
  rw [(h.alike_assignment h' alike).2.2] at built
  rw [map_of_forall₂ ((h.targets_built wf).imp fun _ _ built => built.2.unvalued_eq built.1),
    map_of_forall₂ (built.imp fun _ _ built => built.2.unvalued_eq built.1)]
  refine List.map_congr_left fun b _ => ?_
  rw [h.alike_contents h' wf same steady]

theorem alike_subproblems (wf : m.WellFormed) (same : m.unvalued = m'.unvalued)
    (steady : m.SteadyPowers m') : r'.unvalued.subproblems = r.unvalued.subproblems := by
  have alike := Model.alike_of_unvalued same
  obtain ⟨-, -, ids⟩ := h.alike_assignment h' alike
  obtain ⟨couplings, coupled, couplings_eq⟩ := h.couplings
  obtain ⟨costs, costed, costs_eq⟩ := h.costs
  obtain ⟨couplings', coupled', couplings_eq'⟩ := h'.couplings
  obtain ⟨costs', costed', costs_eq'⟩ := h'.costs
  rw [h.alike_transfers h' wf alike steady, (h.alike_registries h' alike).1, ids, coupled] at coupled'
  rw [h.alike_objective h' wf alike steady, (h.alike_registries h' alike).1, ids, costed] at costed'
  obtain rfl := Except.ok.inj coupled'
  obtain rfl := Except.ok.inj costed'
  -- the tables of a subproblem are those of its id
  have listed (q : Reformulation)
      (own : ∀ s ∈ q.subproblems, s.coupling = (Value.lookup? s.id couplings).getD [] ∧
        s.costs = (Value.lookup? s.id costs).getD []) :
      q.unvalued.subproblems = (q.subproblems.map fun s => (s.id, s.model.unvalued)).map
        fun (id, model) => ⟨id, model, (Value.lookup? id couplings).getD [],
          (Value.lookup? id costs).getD []⟩ := by
    rw [List.map_map]
    refine List.map_congr_left fun s hs => ?_
    simp only [Function.comp, ← (own s hs).1, ← (own s hs).2]
  have models := congrArg (fun targets => targets.tail.filterMap fun t =>
    match t with
    | (Block.master, _) => none
    | (Block.subproblem id, model) => some (id, model)) (h.alike_targets h' wf same steady)
  simp only [Reformulation.targets, List.map_cons, List.tail_cons, List.map_map, List.filterMap_map,
    Function.comp_def] at models
  rw [listed r' fun s hs => ⟨couplings_eq' s hs, costs_eq' s hs⟩,
    listed r fun s hs => ⟨couplings_eq s hs, costs_eq s hs⟩]
  exact congrArg _ (by simpa [List.filterMap_eq_map'] using models)

theorem unvalued_eq (wf : m.WellFormed) (same : m.unvalued = m'.unvalued)
    (steady : m.SteadyPowers m') : r'.unvalued = r.unvalued := by
  have alike := Model.alike_of_unvalued same
  obtain ⟨assignment, partition, ids⟩ := h.alike_assignment h' alike
  obtain ⟨vars, constraints⟩ := h.alike_registries h' alike
  have objective := h.alike_objective h' wf alike steady
  have transfers := h.alike_transfers h' wf alike steady
  have master : r'.master.unvalued = r.master.unvalued :=
    congrArg Prod.snd (List.cons.inj (h.alike_targets h' wf same steady)).1
  have subproblems := h.alike_subproblems h' wf same steady
  obtain ⟨lowerName, upperName, lower, upper, lowerRows, upperRows⟩ := h.rows
  obtain ⟨lowerName', upperName', lower', upper', lowerRows', upperRows'⟩ := h'.rows
  obtain rfl : lowerName' = lowerName := by simpa [lower] using lower'.symm
  obtain rfl : upperName' = upperName := by simpa [upper] using upper'.symm
  rw [ids, ← lowerRows] at lowerRows'
  rw [ids, ← upperRows] at upperRows'
  simp only [Reformulation.unvalued] at subproblems ⊢
  simp only [master, subproblems, lowerRows', upperRows', vars, constraints, assignment, partition,
    transfers, objective]

end TwoRuns

end Reformulation.Trace

/-- Every declared variable has an image that has its value and is fixed if it is. -/
def Reformulation.KeepsValues (r : Reformulation) (m : Model) : Prop :=
  ∀ key handle, (key, handle) ∈ m.vars → ∃ block target image v w,
    r.vars.image? handle = some image ∧ r.vars.imageOwner? image = some block ∧
      (block, target) ∈ r.targets ∧ m.variableOf? handle = some v ∧
        target.variableOf? image = some w ∧ w.value = v.value ∧ w.fixed = v.fixed

namespace Decomposition

theorem keepsValues {first : Nat} {m : Model} {classify : Classify} {config : Config}
    {r : Reformulation} (wf : m.WellFormed) (h : decompose first m classify config = .ok r) :
    r.KeepsValues m := by
  intro key handle hv
  obtain ⟨block, target, image, v, w, found, owned, ht, there, bounded, here⟩ :=
    (decompose_trace wf h).image_of_declared wf hv
  simp only [Variable.bounded?, Success.bind_ok, Success.pure_ok] at bounded
  obtain ⟨lower, -, upper, -, rfl⟩ := bounded
  exact ⟨block, target, image, v, _, found, owned, ht, there, here, rfl, rfl⟩

/-- Two models that differ in the values of their variables, and in which of them are fixed, are
refused for the same reason or have the same decomposition but for the values of the images,
which are those of their variables. -/
theorem decompose_of_values {first : Nat} {m m' : Model} {classify : Classify} {config : Config}
    (regular : m.Regular) (same : m.unvalued = m'.unvalued) (steady : m.SteadyPowers m') :
    (decompose first m' classify config).map Reformulation.unvalued =
        (decompose first m classify config).map Reformulation.unvalued ∧
      (∀ r, decompose first m classify config = .ok r → r.KeepsValues m) ∧
      ∀ r', decompose first m' classify config = .ok r' → r'.KeepsValues m' := by
  have wf := regular.toWellFormed
  have alike := Model.alike_of_unvalued same
  refine ⟨?_, fun r => keepsValues wf, fun r' => keepsValues (alike.wellFormed wf)⟩
  have verdicts : Verdict.of (decompose first m' classify config) =
      .of (decompose first m classify config) := by
    rw [decompose_verdict regular, decompose_verdict (alike.regular regular),
      requirements_alike regular same steady]
  cases h : decompose first m classify config with
  | error e =>
      rw [h, Verdict.of_error, Verdict.of_eq_error] at verdicts
      rw [verdicts]
  | ok r =>
      rw [h, Verdict.of_ok, Verdict.of_eq_ok] at verdicts
      obtain ⟨r', h'⟩ := verdicts
      rw [h']
      exact congrArg Except.ok ((decompose_trace wf h).unvalued_eq
        (decompose_trace (alike.wellFormed wf) h') wf same steady)

end Decomposition

/-- The parameter of a model with a single constraint. -/
def weight : Expression :=
  .parameter ⟨0, "p", 0⟩

/-- Two binary variables, the first one with some value and fixed or not, a parameter, and an
expression that is at most one. -/
def oneValued (value : Value) (fixed : Bool) (parameter : Int) (body : Expression) : Model where
  id := 0
  name := "one_valued"
  components := [
    ⟨"x", .vars (.scalar ⟨.binary, .null, .null, value, fixed⟩), []⟩,
    ⟨"y", .vars (.scalar ⟨.binary, .null, .null, .null, false⟩), []⟩,
    ⟨"p", .parameter (.int parameter), []⟩,
    ⟨"c", .constraints true (.scalar ⟨body, none, some (.number (.int 1)), false, true⟩), []⟩]

theorem oneValued_regular (value : Value) (fixed : Bool) (parameter : Int) (body : Expression) :
    (oneValued value fixed parameter body).Regular where
  names_nodup := show ["x", "y", "p", "c"].Nodup by decide
  contents := by
    simp only [oneValued, List.forall_mem_cons, Content.WellFormed]
    exact ⟨Family.optional_wellFormed _, Family.optional_wellFormed _, trivial,
      Family.optional_wellFormed _, by simp⟩
  sides := by
    simp only [oneValued, List.forall_mem_cons, Content.HasPlainSides, Family.scalar,
      Option.mem_some_iff, forall_eq', true_and]
    exact ⟨⟨⟨by simp, by simp [Expression.hasVariables]⟩, by simp⟩, by simp⟩
  unreserved := by
    have named : ∀ name ∈ ["x", "y", "p", "c"], Reserved.inModel name = false := by decide +kernel
    simpa [oneValued] using named
  uniform := by
    simp [oneValued, Family.Uniform, Content.entries, Family.scalar, Family.arity]

theorem oneValued_unvalued (value : Value) (fixed : Bool) (parameter : Int) (body : Expression) :
    (oneValued .null false parameter body).unvalued =
      (oneValued value fixed parameter body).unvalued :=
  rfl

/-- The square of the parameter times the first variable, and the second variable. -/
def scaled : Expression :=
  .sum [.mul (.pow weight (.number (.int 2))) (.variable ⟨0, "x", 0⟩), .variable ⟨0, "y", 0⟩]

theorem scaled_steady (value : Value) (fixed : Bool) :
    (oneValued .null false 3 scaled).SteadyPowers (oneValued value fixed 3 scaled) where
  constraints := by
    have alike := (Model.alike_of_unvalued (oneValued_unvalued value fixed 3 scaled)).freeReading
    have handles : (oneValued .null false 3 scaled).constraints.map (·.2) = [⟨0, "c", 0⟩] := rfl
    rw [handles, List.forall_mem_singleton]
    intro c there plain dissolved
    obtain rfl : ⟨scaled, none, some (.number (.int 1)), false, true⟩ = c := Except.ok.inj there
    obtain rfl : scaled = plain := Except.ok.inj dissolved
    have base : scaled.powers = [(weight, .number (.int 2))] := rfl
    rw [Expression.Steady, base, List.forall_mem_singleton]
    exact fun _ => .of_plain alike rfl
  objective o inForce := by cases inForce

/-- Values and fixings do not matter to a model with a squared parameter. -/
theorem oneValued_decompose_of_values :
    ((oneValued .null false 3 scaled).Regular ∧
      (oneValued .null false 3 scaled).unvalued =
        (oneValued (.float 0.9999999) true 3 scaled).unvalued ∧
      (oneValued .null false 3 scaled).SteadyPowers (oneValued (.float 0.9999999) true 3 scaled)) ∧
    (∃ r, Decomposition.decompose 1 (oneValued .null false 3 scaled) .allMaster .standard = .ok r) ∧
    (Decomposition.decompose 1 (oneValued (.float 0.9999999) true 3 scaled) .allMaster
          .standard).map Reformulation.unvalued =
        (Decomposition.decompose 1 (oneValued .null false 3 scaled) .allMaster .standard).map
          Reformulation.unvalued ∧
      (∀ r, Decomposition.decompose 1 (oneValued .null false 3 scaled) .allMaster .standard = .ok r →
        r.KeepsValues (oneValued .null false 3 scaled)) ∧
      ∀ r, Decomposition.decompose 1 (oneValued (.float 0.9999999) true 3 scaled) .allMaster
        .standard = .ok r → r.KeepsValues (oneValued (.float 0.9999999) true 3 scaled) := by
  have regular := oneValued_regular .null false 3 scaled
  have same := oneValued_unvalued (.float 0.9999999) true 3 scaled
  have steady := scaled_steady (.float 0.9999999) true
  exact ⟨⟨regular, same, steady⟩, exists_of_toOption_isSome (by decide +kernel),
    Decomposition.decompose_of_values regular same steady⟩

/-- The square of the product of the parameter and the first variable, and the second
variable. -/
def squared : Expression :=
  .sum [.pow (.mul weight (.variable ⟨0, "x", 0⟩)) (.number (.int 2)), .variable ⟨0, "y", 0⟩]

/-- A factor of zero makes the base of a power a number, which is then asked for, although the
variable in it has no value. -/
theorem squared_refused_without_value :
    ((oneValued .null false 0 squared).Regular ∧
      (oneValued .null false 0 squared).unvalued = (oneValued (.int 1) false 0 squared).unvalued) ∧
    Decomposition.decompose 1 (oneValued .null false 0 squared) .allMaster .standard =
        .error (.fault .badValue) ∧
      ∃ r, Decomposition.decompose 1 (oneValued (.int 1) false 0 squared) .allMaster .standard =
        .ok r :=
  ⟨⟨oneValued_regular .null false 0 squared, oneValued_unvalued (.int 1) false 0 squared⟩,
    Verdict.eq_error_of_fault? (by decide +kernel), exists_of_toOption_isSome (by decide +kernel)⟩

end BlockAngular
