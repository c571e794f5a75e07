import BlockAngular.GeneralizedAssignment
import BlockAngular.Proofs.Model.Contents
import BlockAngular.Proofs.Model.Weighted
import BlockAngular.Proofs.Value.Labels

/-! # Instances

Proper instances of the assignment problem are over different labels and have a number for every
pair. What belongs to a machine, a job or a pair has the label or the labels for its index.
-/

namespace BlockAngular

namespace GeneralizedAssignment

open Collected (realTerms)

/-- The entry of a table as a double. -/
def amount? (table : Table) (key : Value) : Option Float :=
  (look table key).toOption.bind Value.double?

/-- The entry of a table as a double, and zero where there is none. -/
def amount (table : Table) (key : Value) : Float :=
  (amount? table key).getD 0.0

/-- The entry of a table as a number, and zero where there is none. -/
def number (table : Table) (key : Value) : Numeric :=
  ((look table key).toOption.map Value.number).getD (.int 0)

theorem look_of_amount? {table : Table} {key : Value} (h : (amount? table key).isSome = true) :
    ∃ v, look table key = .ok v ∧ v.literal? = some (number table key) ∧
      (number table key).real = .ok (amount table key) := by
  obtain ⟨y, there⟩ := Option.isSome_iff_exists.mp h
  obtain ⟨v, found, double⟩ := Option.bind_eq_some_iff.mp there
  obtain ⟨literal, real⟩ := Value.literal?_of_double? double
  have number_eq : number table key = v.number := by simp [number, found]
  have amount_eq : amount table key = y := by simp [amount, there]
  exact ⟨v, Success.toOption_eq_some.mp found, number_eq ▸ literal, number_eq ▸ amount_eq ▸ real⟩

section Tables

variable {α : Type} {items : List α} {table : Table} {index : α → Value}
variable (there : ∀ a ∈ items, (amount? table (index a)).isSome = true)
include there

theorem numbers_real (key : α → Key) :
    ∀ term ∈ items.map fun a => (key a, number table (index a)), ∃ y, term.2.real = .ok y :=
  List.forall_mem_map.mpr fun a ha => ⟨_, (look_of_amount? (there a ha)).choose_spec.2.2⟩

/-- Entries as coefficients, of which zeros are left out. -/
theorem realTerms_numbers (key : α → Key) :
    realTerms (items.map fun a => (key a, number table (index a))) =
      (items.map fun a => (key a, amount table (index a))).filter
        fun term => !Binary64.isZero term.2 := by
  rw [realTerms, List.map_map]
  refine congrArg (List.filter _) (List.map_congr_left fun a ha => ?_)
  obtain ⟨v, -, -, real⟩ := look_of_amount? (there a ha)
  simp [Numeric.double_of_real real]

end Tables

/-- An instance over different labels with a number for every pair, and finite capacities. -/
structure Instance.IsProper (i : Instance) : Prop where
  machines : i.machines ≠ []
  machines_nodup : i.machines.Nodup
  machine : ∀ machine ∈ i.machines, machine.IsLabel
  jobs : i.jobs ≠ []
  jobs_nodup : i.jobs.Nodup
  job : ∀ job ∈ i.jobs, job.IsLabel
  costs : ∀ machine ∈ i.machines, ∀ job ∈ i.jobs,
    (amount? i.costs (.tuple [machine, job])).isSome = true
  capacities : ∀ machine ∈ i.machines, (amount? i.capacities machine).isSome = true ∧
    Binary64.isInfinite (amount i.capacities machine) = false

/-- Numbers for every pair or none at all, a penalty for every job if there are any, and a number
for the constant. -/
structure Extras.Fit (extras : Extras) (i : Instance) : Prop where
  weights : extras.weights = [] ∨ ∀ machine ∈ i.machines, ∀ job ∈ i.jobs,
    (amount? extras.weights (.tuple [machine, job])).isSome = true
  penalties : ∀ table ∈ extras.penalties, ∀ job ∈ i.jobs, (amount? table job).isSome = true
  constant : extras.constant.double?.isSome = true

/-- Numbers for the costs of overtime and shifts, and a limit that bounds from above or is open. -/
structure Overtime.IsProper (overtime : Overtime) : Prop where
  cost : overtime.cost.double?.isSome = true
  machineCost : overtime.machineCost.double?.isSome = true
  limit : overtime.limit = .null ∨ ∃ x, overtime.limit.real? = some x ∧
    (x = .infinite false ∨ ∃ q, x = .finite q)

/-- The weight of a job on a machine, which is one where no weights are given. -/
def weight (extras : Extras) (machine job : Value) : Float :=
  if extras.weights.isEmpty then 1.0 else amount extras.weights (.tuple [machine, job])

theorem mem_pairs {i : Instance} {pair : List Value} :
    pair ∈ pairs i ↔ ∃ machine ∈ i.machines, ∃ job ∈ i.jobs, pair = [machine, job] := by
  simp [pairs, eq_comm]

namespace Instance.IsProper

variable {i : Instance} {machine job : Value}

section Rows

variable (proper : i.IsProper)
include proper

theorem pairs_labelled : ∀ pair ∈ pairs i, Value.IsLabelled pair := by
  intro pair hp
  obtain ⟨machine, hm, job, hj, rfl⟩ := mem_pairs.mp hp
  exact .two (proper.machine machine hm) (proper.job job hj)

theorem pairs_nodup : (pairs i).Nodup := by
  refine List.nodup_flatMap.mpr ⟨fun machine _ => proper.jobs_nodup.map fun a b same => ?_,
    proper.machines_nodup.imp fun {a b} other pair ha hb => ?_⟩
  · simpa using same
  · obtain ⟨_, -, rfl⟩ := List.mem_map.mp ha
    obtain ⟨_, -, same⟩ := List.mem_map.mp hb
    exact other (by simpa using (List.cons.inj same).1.symm)

theorem pairs_ne_nil : pairs i ≠ [] := by
  obtain ⟨machine, hm⟩ := List.exists_mem_of_ne_nil _ proper.machines
  obtain ⟨job, hj⟩ := List.exists_mem_of_ne_nil _ proper.jobs
  exact List.ne_nil_of_mem (mem_pairs.mpr ⟨machine, hm, job, hj, rfl⟩)

theorem costs_given : ∀ pair ∈ pairs i, (amount? i.costs (.tuple pair)).isSome = true := by
  intro pair hp
  obtain ⟨machine, hm, job, hj, rfl⟩ := mem_pairs.mp hp
  exact proper.costs machine hm job hj

theorem machines_labelled : ∀ row ∈ singles i.machines, Value.IsLabelled row :=
  List.forall_mem_map.mpr fun machine hm => .one (proper.machine machine hm)

theorem jobs_labelled : ∀ row ∈ singles i.jobs, Value.IsLabelled row :=
  List.forall_mem_map.mpr fun job hj => .one (proper.job job hj)

theorem pairs_distinct : Value.Distinct ((pairs i).map Value.tuple) := by
  have tuples : (pairs i).map Value.tuple = (pairs i).map Value.ofIndex := by
    refine List.map_congr_left fun pair hp => ?_
    obtain ⟨machine, -, job, -, rfl⟩ := mem_pairs.mp hp
    rfl
  rw [tuples]
  exact Value.IsLabelled.distinct proper.pairs_labelled proper.pairs_nodup

/-- Where no weights are given, all are one. -/
theorem weightsOf_nil : weightsOf i [] = (pairs i).map fun pair => (.tuple pair, .int 1) := by
  suffices ∀ (rest : List (List Value)) (table : Table),
      Value.Distinct (table.map (·.1) ++ rest.map Value.tuple) →
        rest.foldl (fun table pair => Value.insertEntry (.tuple pair) (.int 1) table) table =
          table ++ rest.map fun pair => (.tuple pair, .int 1) from
    this (pairs i) [] proper.pairs_distinct
  intro rest
  induction rest with
  | nil => simp
  | cons pair rest ih =>
      intro table distinct
      have absent : ∀ e ∈ table, e.1.same (.tuple pair) = false := fun e he =>
        (List.pairwise_append.mp distinct.pairwise).2.2 e.1 (List.mem_map_of_mem he) _ (by simp)
      rw [List.foldl_cons, Value.insertEntry_of_absent absent, ih _ (by simpa using distinct)]
      simp

/-- There is a weight for every pair. -/
theorem weights {extras : Extras} (fit : extras.Fit i) (hm : machine ∈ i.machines)
    (hj : job ∈ i.jobs) :
    amount? (weightsOf i extras.weights) (.tuple [machine, job]) =
      some (weight extras machine job) := by
  by_cases none : extras.weights = []
  · have keys : ((pairs i).map fun pair => (Value.tuple pair, Value.int 1)).map (·.1) =
        (pairs i).map Value.tuple := by simp [Function.comp_def]
    have pair := mem_pairs.mpr ⟨machine, hm, job, hj, rfl⟩
    have isKey := proper.pairs_distinct.keys _ (List.mem_map_of_mem pair)
    have found : Value.lookup? (.tuple [machine, job])
        ((pairs i).map fun pair => (Value.tuple pair, Value.int 1)) = some (.int 1) :=
      Value.lookup?_of_mem (keys ▸ proper.pairs_distinct)
        (List.mem_map_of_mem (f := fun pair => (Value.tuple pair, Value.int 1)) pair) isKey.same_self
    have one : Value.double? (.int 1) = some 1.0 := by
      simp [Value.double?, Value.literal?, Numeric.real_one, Except.toOption]
    simp [amount?, look, none, proper.weightsOf_nil, isKey.hashable, found, weight, one,
      Except.toOption]
  · obtain ⟨y, there⟩ := Option.isSome_iff_exists.mp
      ((fit.weights.resolve_left none) machine hm job hj)
    simp [weightsOf, weight, none, amount, there]

end Rows

end Instance.IsProper

end GeneralizedAssignment

end BlockAngular
