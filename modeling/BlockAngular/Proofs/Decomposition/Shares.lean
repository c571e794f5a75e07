import BlockAngular.Proofs.Affine.Exact
import BlockAngular.Proofs.Pricing.Columns

/-! # Shares of a form

The terms of a form fall into those of the master and those of each subproblem. In exact
arithmetic the value of the form is the sum of the shares, and the columns and the costs
of the subproblems are their shares in the constraints of the master and in the objective.
-/

namespace BlockAngular

/-- A list falls into the parts that its members belong to, if each belongs to one. -/
theorem perm_flatMap_filter {α β : Type} {parts : List β} (nodup : parts.Nodup)
    {belongs : β → α → Bool} {l : List α} (one : ∀ a ∈ l, ∃ b ∈ parts, belongs b a = true ∧
      ∀ b' ∈ parts, belongs b' a = true → b' = b) :
    l.Perm (parts.flatMap fun b => l.filter (belongs b)) := by
  induction l with
  | nil => simp
  | cons a l ih =>
      obtain ⟨⟨b, hb, here, only⟩, others⟩ := List.forall_mem_cons.mp one
      obtain ⟨before, after, rfl⟩ := List.append_of_mem hb
      obtain ⟨-, rest, apart⟩ := List.nodup_append.mp nodup
      have elsewhere : ∀ b' ∈ before ++ b :: after, b' ≠ b →
          (a :: l).filter (belongs b') = l.filter (belongs b') := fun b' hb' other =>
        List.filter_cons_of_neg fun there => other (only b' hb' there)
      have first : before.flatMap (fun b => (a :: l).filter (belongs b)) =
          before.flatMap fun b => l.filter (belongs b) :=
        List.flatMap_congr fun b' hb' =>
          elsewhere b' (by simp [hb']) (apart b' hb' b List.mem_cons_self)
      have last : after.flatMap (fun b => (a :: l).filter (belongs b)) =
          after.flatMap fun b => l.filter (belongs b) :=
        List.flatMap_congr fun b' hb' => elsewhere b' (by simp [hb'])
          fun equal => (List.nodup_cons.mp rest).1 (equal ▸ hb')
      have tail := ih others
      simp only [List.flatMap_append, List.flatMap_cons] at tail ⊢
      rw [first, last, List.filter_cons_of_pos here, List.cons_append]
      exact (tail.cons a).trans List.perm_middle.symm

namespace CouplingTable

/-- What the table of an id has for the constraint of a transfer are the terms of the transfer
that live in the id. -/
theorem amountIn_ofTransfers {vars : Registry} {id : Value} {transfers : List Transfer}
    (images : (transfers.map (·.image)).Nodup) {t : Transfer} (ht : t ∈ transfers)
    (y : Handle → Rat) :
    Pricing.amountIn t.image (((transfers.flatMap Transfer.entries).filter fun e =>
        vars.livesIn (.subproblem id) e.2.1).map fun (row, v, k) =>
          (row, Binary64.rational k * y v)) =
      AffineForm.total y (t.form.terms.filter fun term =>
        vars.livesIn (.subproblem id) term.1) := by
  have only : ∀ t' ∈ transfers, t' ≠ t → (t'.entries.filter fun e =>
      decide (e.1 = t.image) && vars.livesIn (.subproblem id) e.2.1) = [] := by
    intro t' ht' other
    refine List.filter_eq_nil_iff.mpr fun e he => ?_
    obtain ⟨term, -, rfl⟩ := List.mem_map.mp he
    simpa using fun same => absurd (List.inj_on_of_nodup_map images ht' ht same) other
  simp only [Pricing.amountIn, List.filter_map, Function.comp_def, List.filter_filter]
  rw [List.filter_flatMap, flatMap_eq_of_only images.of_map ht only]
  simp [AffineForm.total, Transfer.entries, List.filter_map, Function.comp_def]

end CouplingTable

namespace Subproblem

/-- The coefficients of a column, read and added up without errors. -/
def column (s : Subproblem) (y : Handle → Rat) : Except Fault (List (Handle × Rat)) :=
  Pricing.columnCoefficients (.of Binary64.rational) s.coupling fun v => .ok (y v)

/-- The cost of a column, read and added up without errors. -/
def cost (s : Subproblem) (y : Handle → Rat) : Except Fault Rat :=
  Pricing.columnCost (s.costs.map fun (v, k) => (v, Binary64.rational k)) fun v => .ok (y v)

end Subproblem

namespace Reformulation.Trace

open Decomposition

variable {first : Nat} {m : Model} {classify : Classify} {config : Config} {r : Reformulation}

/-- Terms over images are shared out among the blocks. -/
theorem terms_perm (h : r.Trace first m classify config) {terms : List (Handle × Float)}
    (owned : ∀ term ∈ terms, ∃ owner, r.vars.imageOwner? term.1 = some owner) :
    terms.Perm ((blocks r.ids).flatMap fun block =>
      terms.filter fun term => r.vars.livesIn block term.1) := by
  have shared : terms.Perm ((numbered r.ids).flatMap fun b =>
      terms.filter fun term => r.vars.livesIn b.1 term.1) := by
    refine perm_flatMap_filter numbered_nodup fun term ht => ?_
    obtain ⟨owner, hown⟩ := owned term ht
    obtain ⟨b, hb, rfl, -⟩ := h.vars_covers.image_of_owner hown
    refine ⟨b, hb, (h.livesIn_iff hb).mpr hown, fun b' hb' lives => ?_⟩
    have equal := ((h.livesIn_iff hb').mp lives).symm.trans hown
    refine numbered_unique h.ids_distinct hb' hb ?_
    rw [Option.some.inj equal]
    exact Block.same_self (blocks_isKey h.ids_distinct (block_mem hb))
  have listed : (numbered r.ids).map (·.1) = blocks r.ids := List.zipIdx_map_fst _ _
  rwa [← listed, List.flatMap_map]

/-- A sum of terms is that of the terms of the master and of those of all subproblems. -/
theorem total_shares (h : r.Trace first m classify config) {terms : List (Handle × Float)}
    (owned : ∀ term ∈ terms, ∃ owner, r.vars.imageOwner? term.1 = some owner)
    (y : Handle → Rat) : AffineForm.total y terms =
      AffineForm.total y (terms.filter fun term => r.vars.livesIn .master term.1) +
        (r.subproblems.map fun s => AffineForm.total y
          (terms.filter fun term => r.vars.livesIn (.subproblem s.id) term.1)).sum := by
  rw [AffineForm.total_perm (h.terms_perm owned), AffineForm.total_flatMap, blocks, List.map_cons,
    List.sum_cons]
  simp only [Reformulation.ids, List.map_map, Function.comp_def]

/-- A column has for a constraint of the master the share of its subproblem. -/
theorem column_ok (h : r.Trace first m classify config) {s : Subproblem}
    (hs : s ∈ r.subproblems) (y : Handle → Rat) : ∃ column, s.column y = .ok column ∧
      ∀ t ∈ masterTransfers r.transfers, Pricing.Matrix.entry column t.image =
        AffineForm.total y (t.form.terms.filter fun term =>
          r.vars.livesIn (.subproblem s.id) term.1) := by
  obtain ⟨column, made, entries⟩ := Pricing.columnCoefficients_entry Binary64.rational y s.coupling
  refine ⟨column, made, fun t ht => ?_⟩
  have images : ((masterTransfers r.transfers).map (·.image)).Nodup := by
    rw [h.masterTransfers_images]
    exact h.constraints_covers.imagesOf_nodup .master
  rw [entries, h.coupling_eq hs, CouplingTable.ofTransfers, Pricing.sum_ofEntries,
    CouplingTable.amountIn_ofTransfers images ht]

/-- The cost table of a subproblem has the terms that live in it. -/
theorem costs_eq (h : r.Trace first m classify config) {o : MappedObjective}
    (ho : r.objective = some o) (nodup : o.form.vars.Nodup) {s : Subproblem}
    (hs : s ∈ r.subproblems) :
    s.costs = o.form.terms.filter fun term => r.vars.livesIn (.subproblem s.id) term.1 := by
  obtain ⟨tables, made, ofTable⟩ := h.costs
  rw [ho] at made
  obtain ⟨-, rfl⟩ := costTables_ok h.ids_distinct nodup made
  rw [ofTable s hs, lookup?_tables h.ids_distinct (List.mem_map_of_mem hs), Option.getD_some]

/-- The cost of a column is the share of its subproblem in the objective. -/
theorem cost_ok (h : r.Trace first m classify config) {s : Subproblem} (hs : s ∈ r.subproblems)
    {o : MappedObjective} (ho : r.objective = some o) (nodup : o.form.vars.Nodup)
    (y : Handle → Rat) : s.cost y = .ok (AffineForm.total y (o.form.terms.filter fun term =>
      r.vars.livesIn (.subproblem s.id) term.1)) := by
  rw [Subproblem.cost, h.costs_eq ho nodup hs, Pricing.columnCost_eq]
  simp [AffineForm.total, Function.comp_def]

theorem objective_owned (h : r.Trace first m classify config) {o : MappedObjective}
    (ho : r.objective = some o) (nodup : o.form.vars.Nodup) :
    ∀ term ∈ o.form.terms, ∃ owner, r.vars.imageOwner? term.1 = some owner := by
  obtain ⟨tables, made, -⟩ := h.costs
  rw [ho] at made
  exact (costTables_ok h.ids_distinct nodup made).1

end Reformulation.Trace

end BlockAngular
