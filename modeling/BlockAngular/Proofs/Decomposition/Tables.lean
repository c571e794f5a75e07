import BlockAngular.Decomposition.Coupling
import BlockAngular.Proofs.Decomposition.Objectives
import BlockAngular.Proofs.Value.Tables
import Mathlib.Algebra.BigOperators.Group.List.Basic
import Mathlib.Tactic.Abel

/-! # Tables by subproblem

A term goes into the table of the subproblem that its image lives in, and a term of the
master into none. What stands in the table of an id is what the terms of the id make of an
empty table, in their order.
-/

namespace BlockAngular

section ByOwner

variable {α β : Type} {registry : Registry} {ids : List Value}

theorem emptyTables_ok (distinct : Value.Distinct ids) {tables : List (Value × List α)}
    (h : emptyTables ids = .ok tables) : tables = ids.map fun id => (id, []) := by
  have filled : ids.foldl (fun tables id => Value.insertEntry id [] tables) [] =
      ids.map fun id => (id, ([] : List α)) := by
    clear h
    induction ids using List.reverseRecOn with
    | nil => rfl
    | append_singleton ids id ih =>
        obtain ⟨before, -, apart⟩ := List.pairwise_append.mp distinct.pairwise
        have others : Value.Distinct ids := ⟨fun v hv => distinct.keys v (by simp [hv]), before⟩
        rw [List.foldl_append, ih others]
        simp only [List.foldl_cons, List.foldl_nil, List.map_append, List.map_cons, List.map_nil]
        refine Value.insertEntry_of_absent fun e he => ?_
        obtain ⟨own, hown, rfl⟩ := List.mem_map.mp he
        exact apart own hown id (by simp)
  simp only [emptyTables] at h
  split at h
  · rw [← Except.ok.inj h, filled]
  · cases h

theorem changeTable_ok (distinct : Value.Distinct ids) {id : Value} {f : α → α}
    {table : Value → α} {tables : List (Value × α)}
    (h : changeTable id f (ids.map fun own => (own, table own)) = .ok tables) :
    tables = ids.map fun own => (own, if own.same id then f (table own) else table own) := by
  induction ids generalizing tables with
  | nil => cases h
  | cons own ids ih =>
      simp only [List.map_cons, changeTable] at h
      split at h
      · rename_i same
        obtain rfl := Except.ok.inj h
        simp only [List.map_cons, same, if_true, List.cons.injEq, true_and]
        exact List.map_congr_left fun other ho => by simp [distinct.head_ne ho same]
      · rename_i other
        simp only [Success.bind_ok, Success.pure_ok] at h
        obtain ⟨rest, changed, rfl⟩ := h
        simp [other, ih distinct.tail changed]

/-- A change reaches the table of the subproblem that the image lives in, and no other. -/
theorem changeOwned_ok (distinct : Value.Distinct ids) {image : Handle} {f : α → α}
    {table : Value → α} {tables : List (Value × α)}
    (h : changeOwned registry image f (ids.map fun own => (own, table own)) = .ok tables) :
    (∃ owner, registry.imageOwner? image = some owner) ∧ tables = ids.map fun own =>
      (own, if registry.livesIn (.subproblem own) image then f (table own) else table own) := by
  simp only [changeOwned, Success.bind_ok, Registry.imageOwner_ok] at h
  obtain ⟨owner, owned, h⟩ := h
  refine ⟨⟨owner, owned⟩, ?_⟩
  cases owner with
  | master =>
      obtain rfl := Except.ok.inj h
      simp [Registry.livesIn, owned, Block.same]
  | subproblem id =>
      dsimp only at h
      split at h
      · rename_i changed
        obtain rfl := Except.ok.inj h
        split at changed
        · rename_i hashable
          rw [changeTable_ok distinct changed]
          refine List.map_congr_left fun own ho => ?_
          simp [Registry.livesIn, owned, Block.same,
            Value.same_comm (distinct.keys own ho).hashable hashable]
        · cases changed
      · simp at h

/-- After all changes a table is what the changes of its own make of it. -/
theorem foldlM_changeOwned_ok (distinct : Value.Distinct ids) {entries : List β}
    {image : β → Handle} {f : β → α → α} {table : Value → α} {tables : List (Value × α)}
    (h : entries.foldlM (fun tables e => changeOwned registry (image e) (f e) tables)
      (ids.map fun own => (own, table own)) = .ok tables) :
    (∀ e ∈ entries, ∃ owner, registry.imageOwner? (image e) = some owner) ∧
      tables = ids.map fun own => (own, (entries.filter fun e =>
        registry.livesIn (.subproblem own) (image e)).foldl (fun table e => f e table)
          (table own)) := by
  induction entries generalizing table with
  | nil =>
      obtain rfl := Except.ok.inj h
      simp
  | cons e entries ih =>
      simp only [List.foldlM_cons, Success.bind_ok] at h
      obtain ⟨_, changed, rest⟩ := h
      obtain ⟨owned, rfl⟩ := changeOwned_ok distinct changed
      obtain ⟨others, rfl⟩ := ih rest
      refine ⟨List.forall_mem_cons.mpr ⟨owned, others⟩, List.map_congr_left fun own _ => ?_⟩
      by_cases lives : registry.livesIn (.subproblem own) (image e) = true <;> simp [lives]

/-- The table of an id among the tables of all ids. -/
theorem lookup?_tables (distinct : Value.Distinct ids) {table : Value → α} {id : Value}
    (hid : id ∈ ids) : Value.lookup? id (ids.map fun own => (own, table own)) = some (table id) := by
  refine Value.lookup?_of_mem (k := id) ?_ (List.mem_map.mpr ⟨id, hid, rfl⟩)
    (distinct.keys id hid).same_self
  simpa [Function.comp_def] using distinct

/-- The cost table of an id has the terms of the objective that live in the id. -/
theorem costTables_ok (distinct : Value.Distinct ids) {form : AffineForm}
    (nodup : form.vars.Nodup) {tables : List (Value × CostTable Float)}
    (h : costTables (some form) registry ids = .ok tables) :
    (∀ term ∈ form.terms, ∃ owner, registry.imageOwner? term.1 = some owner) ∧
      tables = ids.map fun id =>
        (id, form.terms.filter fun term => registry.livesIn (.subproblem id) term.1) := by
  simp only [costTables, Success.bind_ok] at h
  obtain ⟨empty, started, h⟩ := h
  obtain rfl := emptyTables_ok distinct started
  obtain ⟨owned, rfl⟩ := foldlM_changeOwned_ok distinct h
  refine ⟨owned, List.map_congr_left fun id _ => ?_⟩
  have own : ((form.terms.filter fun term =>
      registry.livesIn (.subproblem id) term.1).map (·.1)).Nodup :=
    List.Nodup.sublist (List.filter_sublist.map _) nodup
  exact congrArg (Prod.mk id) ((Handle.foldl_put (·.2) own).trans (List.map_id _))

end ByOwner

namespace Handle

variable {α : Type} {h k : Handle} {start : α} {f : α → α} {table : List (Handle × α)}

/-- What a change adds to the part of one handle, it adds to the sum over a table. -/
theorem sum_change {β : Type} [AddCommMonoid β] {part : Handle × α → β} {d : β}
    (started : part (h, f start) = d) (changed : ∀ a, part (h, f a) = part (h, a) + d) :
    ((change h start f table).map part).sum = (table.map part).sum + d := by
  induction table with
  | nil => simp [change, started]
  | cons entry rest ih =>
      obtain ⟨own, a⟩ := entry
      by_cases equal : own = h
      · subst equal
        simp only [change, if_true, List.map_cons, List.sum_cons, changed]
        abel
      · simp only [change, equal, if_false, List.map_cons, List.sum_cons, ih]
        abel

end Handle

end BlockAngular
