import BlockAngular.Proofs.Decomposition.ObjectiveSplit
import BlockAngular.Proofs.Decomposition.Outcome

/-! # Tables over the variables of the model

The cost tables and the coupling tables of a decomposition are about images. Put over the
variables of the model instead, the tables of all subproblems are parts of one table, which the
blocks of the variables have no influence on: that of the objective, and that of the constraints
which go to the master.
-/

namespace BlockAngular

open Decomposition

namespace Handle

variable {α : Type} {h : Handle} {start : α} {f : α → α} {table : List (Handle × α)}

theorem change_map {g : Handle → Handle} (apart : ∀ e ∈ table, g e.1 = g h → e.1 = h) :
    change (g h) start f (table.map fun (k, a) => (g k, a)) =
      (change h start f table).map fun (k, a) => (g k, a) := by
  induction table with
  | nil => rfl
  | cons e rest ih =>
      obtain ⟨k, a⟩ := e
      obtain ⟨first, others⟩ := List.forall_mem_cons.mp apart
      by_cases equal : k = h
      · simp [change, equal]
      · have other : g k ≠ g h := fun same => equal (first same)
        simp only [List.map_cons, change, equal, other, if_false, ih others]

theorem change_filter (p : Handle → Bool) :
    (change h start f table).filter (fun (k, _) => p k) =
      if p h then change h start f (table.filter fun (k, _) => p k)
      else table.filter fun (k, _) => p k := by
  induction table with
  | nil => cases there : p h <;> simp [change, there]
  | cons e rest ih =>
      obtain ⟨k, a⟩ := e
      by_cases equal : k = h
      · subst equal
        cases there : p k <;> simp [change, there]
      · simp only [change, equal, if_false, List.filter_cons, ih]
        cases p k <;> cases p h <;> simp [change, equal]

end Handle

namespace CouplingTable

variable {κ : Type}

/-- Coefficients of variables with new names. -/
theorem ofEntries_map {g : Handle → Handle} {entries : List (Handle × Handle × κ)}
    (apart : ∀ e ∈ entries, ∀ e' ∈ entries, g e.2.1 = g e'.2.1 → e.2.1 = e'.2.1) :
    ofEntries (entries.map fun (row, v, k) => (row, g v, k)) =
      (ofEntries entries).map fun (v, pairs) => (g v, pairs) := by
  induction entries using List.reverseRecOn with
  | nil => rfl
  | append_singleton entries e ih =>
      obtain ⟨row, v, k⟩ := e
      have before := ih fun e he e' he' => apart e (by simp [he]) e' (by simp [he'])
      rw [List.map_append, List.map_singleton, ofEntries_concat, ofEntries_concat, before]
      refine Handle.change_map fun entry he same => ?_
      obtain ⟨row', k', there⟩ := mem_ofEntries_keys.mp (List.mem_map_of_mem (f := (·.1)) he)
      exact apart (row', entry.1, k') (by simp [there]) (row, v, k) (by simp) same

/-- Leaving out variables leaves out their entries. -/
theorem ofEntries_filter (p : Handle → Bool) (entries : List (Handle × Handle × κ)) :
    ofEntries (entries.filter fun e => p e.2.1) = (ofEntries entries).filter fun (v, _) => p v := by
  induction entries using List.reverseRecOn with
  | nil => rfl
  | append_singleton entries e ih =>
      obtain ⟨row, v, k⟩ := e
      rw [List.filter_append, ofEntries_concat, addPair, Handle.change_filter, ← ih]
      cases there : p v <;> simp [there, ofEntries_concat, addPair]

end CouplingTable

/-- Whether a variable is registered for a block. -/
def Registry.sends (vars : Registry) (block : Block) (v : Handle) : Bool :=
  (vars.owner? v).any fun owner => owner.same block

namespace Model

/-- The objective in force over the variables, if it is affine. -/
def readObjective (m : Model) : Option MappedObjective :=
  match m.objectiveInForce? with
  | .ok (some (h, o)) => (m.formOf "objective" o.body).toOption.map fun form =>
      ⟨h.component, o.sense, form⟩
  | _ => none

/-- The terms of the objective over the variables. -/
def objectiveTerms (m : Model) : List (Handle × Float) :=
  (m.readObjective.map (·.form.terms)).getD []

/-- The terms of a constraint over the variables, each with the place of the constraint in the
model of a number. -/
def rowTerms (m : Model) (id : Nat) (place : Key × Nat) : List (Handle × Handle × Float) :=
  ((m.readConstraint place.1).toOption.map (·.1.terms)).getD [] |>.map fun (v, k) =>
    (⟨id, place.1.name, place.2⟩, v, k)

variable {m : Model}

theorem readObjective_vars {o : MappedObjective} (h : m.readObjective = some o) :
    ∀ v ∈ o.form.vars, v ∈ m.vars.map (·.2) := by
  unfold readObjective at h
  split at h
  · obtain ⟨form, formed, rfl⟩ := Option.map_eq_some_iff.mp h
    exact (formOf_vars (Success.toOption_eq_some.mp formed)).2
  · cases h

theorem objectiveTerms_known : ∀ e ∈ m.objectiveTerms, e.1 ∈ m.vars.map (·.2) := by
  intro e he
  unfold objectiveTerms at he
  cases read : m.readObjective with
  | none => simp [read] at he
  | some o =>
      rw [read] at he
      exact readObjective_vars read _ (List.mem_map_of_mem (f := (·.1)) he)

theorem readConstraint_vars {key : Key} {read : AffineForm × Limits Float}
    (h : m.readConstraint key = .ok read) : ∀ v ∈ read.1.vars, v ∈ m.vars.map (·.2) := by
  simp only [readConstraint, Success.bind_ok, Success.mapError_ok] at h
  obtain ⟨c, -, h⟩ := h
  split at h
  · simp at h
  · simp only [Success.bind_ok, Success.pure_ok] at h
    obtain ⟨form, formed, limits, -, rfl⟩ := h
    exact (formOf_vars formed).2

theorem rowTerms_known {id : Nat} {place : Key × Nat} :
    ∀ e ∈ m.rowTerms id place, e.2.1 ∈ m.vars.map (·.2) := by
  intro e he
  obtain ⟨term, ht, rfl⟩ := List.mem_map.mp he
  cases read : m.readConstraint place.1 with
  | error => simp [read, Except.toOption] at ht
  | ok form =>
      simp only [read, Except.toOption, Option.map_some, Option.getD_some] at ht
      exact readConstraint_vars read _ (List.mem_map_of_mem (f := (·.1)) ht)

end Model

namespace Registry.HasImages

variable {vars : Registry} {m : Model}

/-- The image of a declared variable has the variable for its preimage, and lives where the
variable is registered for. -/
theorem of_known (images : vars.HasImages m) {v : Handle} (known : v ∈ m.vars.map (·.2)) :
    vars.preimage? (Expression.nameOf vars.image? v) = some v ∧
      ∀ block, vars.livesIn block (Expression.nameOf vars.image? v) = vars.sends block v := by
  obtain ⟨image, found⟩ := (images.known v).mpr known
  have named : Expression.nameOf vars.image? v = image := by simp [Expression.nameOf, found]
  rw [named]
  refine ⟨images.faithful.preimage?_image?.mpr found, fun block => ?_⟩
  rw [livesIn, sends, images.faithful.imageOwner?_of_image? found]

/-- A list about images, put over the variables. -/
theorem over_variables (images : vars.HasImages m) {α : Type} {l : List (Handle × α)}
    (known : ∀ e ∈ l, e.1 ∈ m.vars.map (·.2)) :
    (l.map fun (v, a) => (Expression.nameOf vars.image? v, a)).map
      (fun (image, a) => (vars.preimage? image, a)) = l.map fun (v, a) => (some v, a) := by
  rw [List.map_map]
  refine List.map_congr_left fun e he => ?_
  simp [(images.of_known (known e he)).1]

end Registry.HasImages

namespace Subproblem

/-- The costs of a subproblem over the variables of the model. -/
def originalCosts (s : Subproblem) (vars : Registry) : List (Option Handle × Float) :=
  s.costs.map fun (image, k) => (vars.preimage? image, k)

/-- The coupling table of a subproblem over the variables of the model. -/
def originalCoupling (s : Subproblem) (vars : Registry) :
    List (Option Handle × List (Handle × Float)) :=
  s.coupling.map fun (image, pairs) => (vars.preimage? image, pairs)

end Subproblem

namespace Reformulation.Trace

variable {first : Nat} {m : Model} {classify : Classify} {config : Config} {r : Reformulation}

theorem hasImages (h : r.Trace first m classify config) (wf : m.WellFormed) :
    r.vars.HasImages m :=
  hasImages_of_covers wf h.assigned h.vars_covers

/-- The objective of a decomposition is that of the model, over the images. -/
theorem objective_eq (h : r.Trace first m classify config) (wf : m.WellFormed) :
    r.objective = m.readObjective.map fun o =>
      { o with form := o.form.rename (Expression.nameOf r.vars.image?) } := by
  obtain ⟨own, inForce, mapped⟩ := h.objective
  rw [Model.readObjective, inForce]
  cases own with
  | none => exact (Except.ok.inj mapped).symm
  | some o =>
      simp only [mapObjective, Success.bind_ok, Success.pure_ok,
        Model.mapped_eq_formOf (h.hasImages wf), Success.map_ok] at mapped
      obtain ⟨_, ⟨form, formed, rfl⟩, objective⟩ := mapped
      simp [← objective, formed, Except.toOption]

theorem objective_nodup (h : r.Trace first m classify config) {o : MappedObjective}
    (ho : r.objective = some o) : o.form.vars.Nodup := by
  obtain ⟨own, -, mapped⟩ := h.objective
  rw [ho] at mapped
  cases own with
  | none => cases mapped
  | some own =>
      simp only [mapObjective, Success.bind_ok, Success.pure_ok] at mapped
      obtain ⟨form, read, equal⟩ := mapped
      cases equal
      exact Expression.mapped_vars_nodup read

/-- The costs of a subproblem are the terms of the objective in the variables that are
registered for it. -/
theorem originalCosts_eq (h : r.Trace first m classify config) (wf : m.WellFormed)
    {s : Subproblem} (hs : s ∈ r.subproblems) : s.originalCosts r.vars =
      (m.objectiveTerms.filter fun (v, _) => r.vars.sends (.subproblem s.id) v).map
        fun (v, k) => (some v, k) := by
  have images := h.hasImages wf
  have objective := h.objective_eq wf
  rw [Subproblem.originalCosts, Model.objectiveTerms]
  cases read : m.readObjective with
  | none => simp [h.costs_eq_nil (by simpa [read] using objective) hs]
  | some o =>
      have known := Model.readObjective_vars read
      rw [read, Option.map_some] at objective
      rw [h.costs_eq objective (h.objective_nodup objective) hs,
        AffineForm.livesIn_rename images known]
      exact images.over_variables fun e he =>
        known _ (List.mem_map_of_mem (List.mem_filter.mp he).1)

/-- The terms of the constraints of the master, over the variables. -/
def masterTerms (first : Nat) (m : Model) (r : Reformulation) : List (Handle × Handle × Float) :=
  (r.partition.constraintsOf .master).places.flatMap (m.rowTerms first)

theorem masterTerms_known : ∀ e ∈ masterTerms first m r, e.2.1 ∈ m.vars.map (·.2) := by
  intro e he
  obtain ⟨place, -, he⟩ := List.mem_flatMap.mp he
  exact Model.rowTerms_known e he

/-- What became of the constraints of the master mentions the images of their variables. -/
theorem masterTransfers_entries (h : r.Trace first m classify config) (wf : m.WellFormed) :
    (masterTransfers r.transfers).flatMap Transfer.entries =
      (masterTerms first m r).map fun (row, v, k) =>
        (row, Expression.nameOf r.vars.image? v, k) := by
  rw [masterTerms, List.map_flatMap]
  refine flatMap_of_forall₂ (h.masterTransfers_of.imp ?_)
  rintro place _ ⟨transit, arrived, rfl⟩
  rw [transitOf_eq wf (h.hasImages wf), Success.map_ok] at arrived
  obtain ⟨read, there, rfl⟩ := arrived
  simp [Transfer.entries, Model.rowTerms, there, Model.transitTo, AffineForm.rename,
    Except.toOption]

/-- The coupling table of a subproblem has the variables that are registered for it, of those
that the constraints of the master mention. -/
theorem originalCoupling_eq (h : r.Trace first m classify config) (wf : m.WellFormed)
    {s : Subproblem} (hs : s ∈ r.subproblems) : s.originalCoupling r.vars =
      ((CouplingTable.ofEntries (masterTerms first m r)).filter fun (v, _) =>
        r.vars.sends (.subproblem s.id) v).map fun (v, pairs) => (some v, pairs) := by
  have images := h.hasImages wf
  have known : ∀ e ∈ masterTerms first m r, e.2.1 ∈ m.vars.map (·.2) := masterTerms_known
  rw [Subproblem.originalCoupling, h.coupling_eq hs, CouplingTable.ofTransfers,
    h.masterTransfers_entries wf, List.filter_map]
  have own : (masterTerms first m r).filter ((fun e => r.vars.livesIn (.subproblem s.id) e.2.1) ∘
      fun (row, v, k) => (row, Expression.nameOf r.vars.image? v, k)) =
        (masterTerms first m r).filter fun e => r.vars.sends (.subproblem s.id) e.2.1 :=
    List.filter_congr fun e he => (images.of_known (known e he)).2 _
  rw [own, CouplingTable.ofEntries_map, CouplingTable.ofEntries_filter]
  · refine images.over_variables fun e he => ?_
    obtain ⟨row, k, there⟩ := CouplingTable.mem_ofEntries_keys.mp
      (List.mem_map_of_mem (f := (·.1)) (List.mem_filter.mp he).1)
    exact known _ there
  · intro e he e' he' same
    have own := (images.of_known (known e (List.mem_filter.mp he).1)).1
    rw [same, (images.of_known (known e' (List.mem_filter.mp he').1)).1] at own
    exact (Option.some.inj own).symm

end Reformulation.Trace

end BlockAngular
