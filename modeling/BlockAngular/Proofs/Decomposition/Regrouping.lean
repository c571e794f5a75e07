import BlockAngular.Proofs.Decomposition.Placement
import BlockAngular.Proofs.Value.Simple

/-! # Slices that are grouped again

Keys that come name by name are grouped into the slice that lists them like this. So the keys of a
slice are grouped into that slice again, and if they come in the order of their places, only the
rows are sorted.
-/

namespace BlockAngular

namespace Slice

variable {slice done : Slice} {name : String}

/-- A key whose name is not in the first part of a slice goes to the second one. -/
theorem insert_append {key : Key} (new : key.name ∉ done.map (·.1)) (slice : Slice) :
    (done ++ slice).insert key = done ++ slice.insert key := by
  induction done with
  | nil => rfl
  | cons entry rest ih =>
      simp only [List.map_cons, List.mem_cons, not_or] at new
      simp [insert, Ne.symm new.1, ih new.2]

/-- Further rows of the last name are added to its rows. -/
theorem foldl_insert_rows {seen rows : List (List Value)} (new : name ∉ done.map (·.1))
    (distinct : Key.Distinct ((seen ++ rows).map (⟨name, ·⟩))) :
    (rows.map (⟨name, ·⟩ : List Value → Key)).foldl insert (done ++ [(name, seen)]) =
      done ++ [(name, seen ++ rows)] := by
  induction rows generalizing seen with
  | nil => simp
  | cons row rows ih =>
      have absent : holdsIndex seen row = false := by
        refine holdsIndex_eq_false fun other ho => ?_
        have apart := distinct.pairwise
        rw [List.map_append, List.map_cons, List.pairwise_append] at apart
        simpa [Key.same] using apart.2.2 _ (List.mem_map_of_mem ho) _ List.mem_cons_self
      rw [List.map_cons, List.foldl_cons, insert_append new]
      simp only [insert, beq_self_eq_true, if_true, addIndex, absent, Bool.false_eq_true, if_false]
      rw [ih (by simpa using distinct)]
      simp

theorem foldl_insert_keys (names : ((done ++ slice).map (·.1)).Nodup)
    (nonempty : ∀ entry ∈ slice, entry.2 ≠ []) (distinct : Key.Distinct slice.keys) :
    slice.keys.foldl insert done = done ++ slice := by
  induction slice generalizing done with
  | nil => simp [keys]
  | cons entry rest ih =>
      obtain ⟨name, rows⟩ := entry
      obtain ⟨first, others⟩ := List.forall_mem_cons.mp nonempty
      have new : name ∉ done.map (·.1) := fun there => by
        rw [List.map_append, List.nodup_append] at names
        exact names.2.2 _ there name (by simp) rfl
      obtain ⟨row, rows, rfl⟩ := List.exists_cons_of_ne_nil first
      rw [keys_cons] at distinct
      have started : done.insert ⟨name, row⟩ = done ++ [(name, [row])] := by
        simpa [insert] using @insert_append done ⟨name, row⟩ new []
      rw [keys_cons, List.map_cons, List.cons_append, List.foldl_cons, started, List.foldl_append,
        foldl_insert_rows new (distinct.sublist (List.sublist_append_left _ _)), ih (by simpa using names)
          others (distinct.sublist (List.sublist_append_right _ _))]
      simp

/-- The keys of a slice are grouped into the slice again. -/
theorem ofKeys_keys (grouped : slice.Grouped) (distinct : Key.Distinct slice.keys) :
    ofKeys slice.keys = slice :=
  foldl_insert_keys grouped.names_nodup grouped.nonempty distinct

theorem keys_sorted (slice : Slice) : keys slice.sorted = slice.places.map (·.1) := by
  rw [places_keys, sorted, keys, List.flatMap_map]

theorem places_sorted (slice : Slice) : places slice.sorted = slice.places := by
  simp [places, sorted, List.flatMap_map]

theorem Grouped.sorted (grouped : slice.Grouped) : Grouped slice.sorted where
  names_nodup := by simpa [Slice.sorted, Function.comp_def] using grouped.names_nodup
  nonempty := by
    rintro _ he empty
    obtain ⟨entry, listed, rfl⟩ := List.mem_map.mp he
    exact grouped.nonempty entry listed
      (List.perm_nil.mp (empty ▸ (Value.sortIndices_perm entry.2).symm))

/-- Keys in the order of their places are grouped into the slice with its rows sorted. -/
theorem ofKeys_places (grouped : slice.Grouped) (distinct : Key.Distinct slice.keys) :
    ofKeys (slice.places.map (·.1)) = slice.sorted := by
  rw [← keys_sorted]
  refine ofKeys_keys grouped.sorted (distinct.perm ?_)
  rw [keys_sorted]
  exact (places_keys_perm slice).symm

/-- Keys that were grouped once have the same images again. -/
theorem imagesIn_ofKeys_places {keys : List Key} (distinct : Key.Distinct keys) (id : Nat) :
    (ofKeys ((ofKeys keys).places.map (·.1))).imagesIn id = (ofKeys keys).imagesIn id := by
  have grouped := grouped_ofKeys keys
  rw [imagesIn, imagesIn, ofKeys_places grouped (distinct.perm (keys_ofKeys_perm distinct).symm),
    places_sorted]

/-- The keys of a kind. -/
def only (kind : Key → Bool) (slice : Slice) : Slice :=
  (slice.map fun e => (e.1, e.2.filter fun row => kind ⟨e.1, row⟩)).filter fun e => !e.2.isEmpty

theorem keys_only (kind : Key → Bool) (slice : Slice) :
    keys (only kind slice) = slice.keys.filter kind := by
  induction slice with
  | nil => rfl
  | cons e rest ih =>
      rw [keys_cons, List.filter_append, ← ih, List.filter_map]
      simp only [only, List.map_cons, List.filter_cons, Function.comp_def]
      cases e.2.filter fun row => kind ⟨e.1, row⟩ <;> simp [keys_cons]

theorem only_grouped (kind : Key → Bool) (names : (slice.map (·.1)).Nodup) :
    Grouped (only kind slice) where
  names_nodup := by
    have sub := (List.filter_sublist (l := slice.map fun e =>
      (e.1, e.2.filter fun row => kind ⟨e.1, row⟩)) (p := fun e => !e.2.isEmpty)).map (·.1)
    rw [List.map_map] at sub
    exact names.sublist sub
  nonempty e he := by simpa using (List.mem_filter.mp he).2

/-- The keys of a kind are grouped as they are in the slice. -/
theorem ofKeys_filter (kind : Key → Bool) (names : (slice.map (·.1)).Nodup)
    (distinct : Key.Distinct slice.keys) : ofKeys (slice.keys.filter kind) = only kind slice := by
  rw [← keys_only]
  refine ofKeys_keys (only_grouped kind names) ?_
  rw [keys_only]
  exact distinct.sublist List.filter_sublist

/-- A slice with the rows of each name in some order. -/
def Reorders (slice slice' : Slice) : Prop :=
  List.Forall₂ (fun e e' => e'.1 = e.1 ∧ e'.2.Perm e.2) slice slice'

namespace Reorders

variable {slice' : Slice}

theorem names (h : slice.Reorders slice') : slice'.map (·.1) = slice.map (·.1) := by
  induction h with
  | nil => rfl
  | cons first _ ih => rw [List.map_cons, List.map_cons, first.1, ih]

theorem keys (h : slice.Reorders slice') : slice'.keys.Perm slice.keys := by
  induction h with
  | nil => exact .refl _
  | cons first _ ih =>
      rw [keys_cons, keys_cons, first.1]
      exact (first.2.map _).append ih

theorem only (kind : Key → Bool) (h : slice.Reorders slice') :
    Reorders (slice.only kind) (slice'.only kind) := by
  induction h with
  | nil => exact .nil
  | @cons e e' _ _ first _ ih =>
      obtain ⟨named, rows⟩ := first
      have kept := rows.filter fun row => kind ⟨e.1, row⟩
      simp only [Slice.only, List.map_cons, List.filter_cons, named, kept.isEmpty_eq] at ih ⊢
      split
      · exact .cons ⟨rfl, kept⟩ ih
      · exact ih

/-- Rows of simple indices are sorted in one way. -/
theorem sorted (h : slice.Reorders slice') (distinct : Key.Distinct slice.keys)
    (simple : ∀ key ∈ slice.keys, Value.allSimple key.index = true) :
    Slice.sorted slice' = slice.sorted := by
  induction h with
  | nil => rfl
  | @cons e e' rest _ first _ ih =>
      rw [keys_cons] at distinct simple
      obtain ⟨own, others⟩ := List.forall_mem_append.mp simple
      have rows : Value.sortIndices e'.2 = Value.sortIndices e.2 := by
        refine Value.sortIndices_of_perm first.2 (fun row hr => own _ (List.mem_map_of_mem hr)) ?_
        intro a ha b hb same
        have equal := distinct.eq_of_same
          (List.mem_append_left _ (List.mem_map_of_mem (f := (⟨e.1, ·⟩ : List Value → Key)) ha))
          (List.mem_append_left _ (List.mem_map_of_mem (f := (⟨e.1, ·⟩ : List Value → Key)) hb))
          (Key.same_iff.mpr ⟨rfl, same⟩)
        exact (Key.mk.inj equal).2
      have tail := ih (distinct.sublist (List.sublist_append_right _ _)) others
      simp only [Slice.sorted, List.map_cons, rows, first.1] at tail ⊢
      rw [tail]

end Reorders

end Slice

end BlockAngular
