import BlockAngular.Proofs.Pricing.Columns
import Mathlib.Algebra.Ring.Basic

/-! # The matrix of a coupling table

A coupling table gives a matrix over any list of variables: a row for every constraint of the
table, even if no listed variable is in it, and a column for every listed variable, even if the
table does not know it. Reduced costs go through this matrix. In exact arithmetic they are what
the tables say of each variable alone, so that the list does not matter to them.
-/

namespace BlockAngular

namespace Handle

section Put

variable {α : Type} {h k : Handle} {a : α} {table : List (Handle × α)}

/-- Of the contents that are put for a handle, the table has the one that all agree on. -/
theorem lookup_foldl_put (content : Handle → α) (hs : List Handle) :
    (hs.foldl (fun table h => put h (content h) table) table).lookup k =
      if k ∈ hs then some (content k) else table.lookup k := by
  induction hs generalizing table with
  | nil => simp
  | cons h hs ih =>
      rw [List.foldl_cons, ih, lookup_put]
      by_cases later : k ∈ hs
      · simp [later]
      · by_cases now : k = h <;> simp [later, now]

theorem foldl_put_keys (content : Handle → α) (hs : List Handle) :
    (hs.foldl (fun table h => put h (content h) table) table).map (·.1) =
      hs.foldl (fun seen h => insertNew h seen) (table.map (·.1)) := by
  induction hs generalizing table with
  | nil => rfl
  | cons h hs ih => rw [List.foldl_cons, List.foldl_cons, ih, put_keys]

end Put

/-- Handles that are added unless they are there stand in the order of their first appearance. -/
theorem foldl_insertNew (hs : List Handle) :
    hs.foldl (fun seen h => insertNew h seen) [] = hs.eraseDups := by
  induction hs using List.reverseRecOn with
  | nil => rfl
  | append_singleton hs h ih =>
      rw [List.foldl_append, ih, List.eraseDups_append]
      by_cases seen : h ∈ hs <;> simp [insertNew, List.removeAll, seen, List.eraseDups_cons]

theorem eraseDups_of_nodup {hs : List Handle} (different : hs.Nodup) : hs.eraseDups = hs := by
  induction hs with
  | nil => rfl
  | cons h hs ih =>
      obtain ⟨new, others⟩ := List.nodup_cons.mp different
      have kept : hs.filter (fun k => !k == h) = hs :=
        List.filter_eq_self.mpr fun k hk => by
          simpa using fun same : k = h => new (same ▸ hk)
      rw [List.eraseDups_cons, kept, ih others]

theorem eraseDups_nodup (hs : List Handle) : hs.eraseDups.Nodup := by
  rw [← foldl_insertNew]
  induction hs using List.reverseRecOn with
  | nil => exact List.nodup_nil
  | append_singleton hs h ih =>
      rw [List.foldl_append, List.foldl_cons, List.foldl_nil, insertNew]
      split
      · exact ih
      · rename_i new
        exact ih.append (List.nodup_singleton h) (by simpa using new)

end Handle

namespace CouplingTable

variable {κ : Type} {table : CouplingTable κ} {v : Handle}

/-- The coefficients that the entry of a variable pairs with a row. -/
def coefficientsIn (table : CouplingTable κ) (row v : Handle) : List κ :=
  ((table.pairsOf v).filter fun pair => pair.1 = row).map (·.2)

theorem rows_eq : table.rows = (table.flatMap fun e => e.2.map (·.1)).eraseDups :=
  Handle.foldl_insertNew _

theorem rows_nodup : table.rows.Nodup := by
  rw [rows_eq]
  exact Handle.eraseDups_nodup _

/-- The constraints of a variable are rows. -/
theorem row_mem_of_pair {pair : Handle × κ} (h : pair ∈ table.pairsOf v) : pair.1 ∈ table.rows := by
  unfold pairsOf at h
  cases found : table.lookup v with
  | none => simp [found] at h
  | some pairs =>
      obtain ⟨before, after, rfl, -⟩ := List.lookup_eq_some_iff.mp found
      rw [rows_eq, List.mem_eraseDups]
      rw [found] at h
      simpa using .inr (.inl ⟨_, h⟩)

theorem pairsOf_of_absent (h : v ∉ table.map (·.1)) : table.pairsOf v = [] := by
  simp [pairsOf, lookup_of_absent h]

end CouplingTable

namespace Pricing

section Matrix

variable {κ β : Type} [OfNat β 0] [Add β]

/-- The sum of some numbers, from the first to the last. -/
def total : List β → β
  | [] => 0
  | x :: rest => rest.foldl (· + ·) x

/-- Add a number to the entry of its row. -/
def addEntry (column : List (Handle × β)) (e : Handle × β) : List (Handle × β) :=
  match column.lookup e.1 with
  | some y => Handle.put e.1 (y + e.2) column
  | none => Handle.put e.1 e.2 column

omit [OfNat β 0] in
theorem lookup_addEntry (column : List (Handle × β)) (e : Handle × β) (row : Handle) :
    (addEntry column e).lookup row =
      if e.1 = row then some (((column.lookup row).map (· + e.2)).getD e.2)
      else column.lookup row := by
  unfold addEntry
  by_cases equal : e.1 = row
  · subst equal
    split <;> simp [Handle.lookup_put, *]
  · split <;> simp [Handle.lookup_put, equal, Ne.symm equal]

omit [OfNat β 0] in
theorem addEntry_keys (column : List (Handle × β)) (e : Handle × β) :
    (addEntry column e).map (·.1) = Handle.insertNew e.1 (column.map (·.1)) := by
  unfold addEntry
  split <;> exact Handle.put_keys

/-- Entries with the numbers of one row summed. -/
def gather (entries : List (Handle × β)) : List (Handle × β) :=
  entries.foldl addEntry []

omit [OfNat β 0] in
theorem gather_concat (entries : List (Handle × β)) (e : Handle × β) :
    gather (entries ++ [e]) = addEntry (gather entries) e := by
  simp [gather]

omit [OfNat β 0] in
theorem lookup_gather (entries : List (Handle × β)) (row : Handle) : (gather entries).lookup row =
    ((entries.filter fun e => e.1 = row).map (·.2)).foldl
      (fun sum x => some ((sum.map (· + x)).getD x)) none := by
  induction entries using List.reverseRecOn with
  | nil => rfl
  | append_singleton entries e ih =>
      rw [gather_concat, lookup_addEntry, ih]
      by_cases equal : e.1 = row <;> simp [equal]

omit [OfNat β 0] in
/-- A row that has been met keeps the sum of its numbers so far. -/
theorem foldl_sum (x : β) (rest : List β) :
    rest.foldl (fun sum x => some ((sum.map (· + x)).getD x)) (some x) =
      some (rest.foldl (· + ·) x) := by
  induction rest generalizing x with
  | nil => rfl
  | cons y rest ih => exact ih (x + y)

/-- The entry of a row is the sum of its numbers. -/
theorem entry_gather (entries : List (Handle × β)) (row : Handle) :
    Matrix.entry (gather entries) row =
      total ((entries.filter fun e => e.1 = row).map (·.2)) := by
  rw [Matrix.entry, lookup_gather]
  cases (entries.filter fun e => e.1 = row).map (·.2) with
  | nil => rfl
  | cons x rest => simp [total, foldl_sum]

omit [OfNat β 0] in
theorem gather_keys (entries : List (Handle × β)) :
    (gather entries).map (·.1) = (entries.map (·.1)).eraseDups := by
  rw [← Handle.foldl_insertNew, List.foldl_map]
  induction entries using List.reverseRecOn with
  | nil => rfl
  | append_singleton entries e ih => rw [gather_concat, addEntry_keys, ih, List.foldl_append]; rfl

/-- The column of a variable. -/
def columnOf (read : κ → β) (table : CouplingTable κ) (v : Handle) : List (Handle × β) :=
  gather ((table.pairsOf v).map fun (row, k) => (row, read k))

variable {read : κ → β} {table : CouplingTable κ} {v : Handle}

theorem entry_columnOf (row : Handle) : Matrix.entry (columnOf read table v) row =
    total ((table.coefficientsIn row v).map read) := by
  rw [columnOf, entry_gather, List.filter_map, CouplingTable.coefficientsIn, List.map_map,
    List.map_map]
  rfl

omit [OfNat β 0] in
theorem columnOf_keys {row : Handle} (h : row ∈ (columnOf read table v).map (·.1)) :
    row ∈ table.rows := by
  rw [columnOf, gather_keys, List.mem_eraseDups, List.map_map] at h
  obtain ⟨pair, hp, rfl⟩ := List.mem_map.mp h
  exact CouplingTable.row_mem_of_pair hp

omit [OfNat β 0] in
theorem matrixColumn_ok (times : κ → β → Except Fault β) (pairs : List (Handle × κ)) :
    matrixColumn ⟨times, fun k => .ok (read k)⟩ pairs =
      .ok (gather (pairs.map fun pair => (pair.1, read pair.2))) := by
  have entries : pairs.mapM (fun pair => (.ok (pair.1, read pair.2) : Except Fault (Handle × β))) =
      .ok (pairs.map fun pair => (pair.1, read pair.2)) := by
    rw [Success.mapM_ok, List.forall₂_map_right_iff]
    exact List.forall₂_same.mpr fun _ _ => rfl
  exact Success.bind_ok.mpr ⟨_, entries, rfl⟩

omit [OfNat β 0] in
/-- There is a matrix over any list of variables. -/
theorem matrix_ok (times : κ → β → Except Fault β) (vars : List Handle) :
    matrix ⟨times, fun k => .ok (read k)⟩ table vars =
      .ok ⟨table.rows, vars.map fun v => (v, columnOf read table v)⟩ := by
  have columns : vars.mapM (fun v => do
      return (v, ← matrixColumn ⟨times, fun k => .ok (read k)⟩ (table.pairsOf v))) =
      .ok (vars.map fun v => (v, columnOf read table v)) := by
    rw [Success.mapM_ok, List.forall₂_map_right_iff]
    exact List.forall₂_same.mpr fun _ _ => by rw [matrixColumn_ok]; rfl
  rw [matrix, columns]
  rfl

/-- A matrix is that of a coupling table over a list of variables. -/
structure Matrix.Exports (m : Matrix β) (read : κ → β) (table : CouplingTable κ)
    (vars : List Handle) : Prop where
  /-- The rows are the constraints of the whole table, in the order of their first appearance. -/
  rows : m.rows = (table.flatMap fun e => e.2.map (·.1)).eraseDups
  rows_nodup : m.rows.Nodup
  columns : m.columns.map (·.1) = vars
  /-- An entry is the sum of the coefficients that the table pairs with its row. -/
  entries : m.dense = m.rows.map fun row => vars.map fun v =>
    total ((table.coefficientsIn row v).map read)
  /-- Nothing is stored outside the rows. -/
  stored : ∀ column ∈ m.columns, ∀ e ∈ column.2, e.1 ∈ m.rows

theorem matrix_exports (times : κ → β → Except Fault β) (vars : List Handle) :
    ∃ m, matrix ⟨times, fun k => .ok (read k)⟩ table vars = .ok m ∧ m.Exports read table vars := by
  refine ⟨_, matrix_ok times vars, CouplingTable.rows_eq, CouplingTable.rows_nodup, ?_, ?_, ?_⟩
  · simp [Function.comp_def]
  · simp [Matrix.dense, entry_columnOf]
  · intro column hc e he
    obtain ⟨v, -, rfl⟩ := List.mem_map.mp hc
    exact columnOf_keys (List.mem_map_of_mem (f := (·.1)) he)

end Matrix

end Pricing

end BlockAngular
