import BlockAngular.Proofs.Value.Equality
import Mathlib.Data.List.Induction
import Mathlib.Data.List.Perm.Basic

/-! # Tables with values for keys

A table in which no two keys are equal answers for every key in one way only, whatever
the spelling of the key. Entries that are put there under new keys stand at its end.
-/

namespace BlockAngular

namespace Value

variable {α β : Type}

/-- Values that can be keys together: each can be a key, and no two are equal. -/
structure Distinct (vs : List Value) : Prop where
  keys : ∀ v ∈ vs, v.IsKey
  pairwise : vs.Pairwise fun a b => a.same b = false

namespace Distinct

theorem nil : Distinct [] :=
  ⟨by simp, .nil⟩

/-- The order of the values does not matter. -/
theorem perm {vs ws : List Value} (h : Distinct vs) (p : vs.Perm ws) : Distinct ws := by
  refine ⟨fun v hv => h.keys v (p.mem_iff.mpr hv), ?_⟩
  have keyed : vs.Pairwise fun a b => a.hashable = true → b.hashable = true → a.same b = false :=
    h.pairwise.imp fun different _ _ => different
  have moved := (p.pairwise_iff fun {a b} ab hb ha => by
    rw [same_comm hb ha]; exact ab ha hb).mp keyed
  exact moved.imp_of_mem fun {a b} ha hb ab =>
    ab (h.keys a (p.mem_iff.mpr ha)).hashable (h.keys b (p.mem_iff.mpr hb)).hashable

theorem tail {v : Value} {vs : List Value} (h : Distinct (v :: vs)) : Distinct vs :=
  ⟨fun w hw => h.keys w (List.mem_cons_of_mem _ hw), (List.pairwise_cons.mp h.pairwise).2⟩

theorem head_ne {v w c : Value} {vs : List Value} (h : Distinct (v :: vs)) (hw : w ∈ vs)
    (vc : v.same c = true) : w.same c = false := by
  by_contra equal
  have hv := (h.keys v List.mem_cons_self).hashable
  have hw' := (h.keys w (List.mem_cons_of_mem _ hw)).hashable
  have different := (List.pairwise_cons.mp h.pairwise).1 w hw
  rw [same_trans hv vc (same_symm hw' (by simpa using equal))] at different
  cases different

/-- Of distinct values only one equals a given one. -/
theorem unique {vs : List Value} (h : Distinct vs) {a b c : Value} (ha : a ∈ vs) (hb : b ∈ vs)
    (ac : a.same c = true) (bc : b.same c = true) : a = b := by
  induction vs with
  | nil => simp at ha
  | cons v vs ih =>
      rcases List.mem_cons.mp ha with rfl | ha' <;> rcases List.mem_cons.mp hb with rfl | hb'
      · rfl
      · simp [h.head_ne hb' ac] at bc
      · simp [h.head_ne ha' bc] at ac
      · exact ih h.tail ha' hb'

end Distinct

theorem memberOf_iff {v : Value} {vs : List Value} :
    memberOf v vs = true ↔ ∃ w ∈ vs, w.same v = true := by
  simp [memberOf]

theorem insertNew_distinct {v : Value} {vs : List Value} (hv : v.IsKey) (h : Distinct vs) :
    Distinct (insertNew v vs) := by
  unfold insertNew
  split
  · exact h
  · rename_i absent
    rw [memberOf_iff] at absent
    refine ⟨?_, List.pairwise_append.mpr ⟨h.pairwise, List.pairwise_singleton _ _, ?_⟩⟩
    · simp only [List.mem_append, List.mem_singleton]
      rintro w (hw | rfl)
      · exact h.keys w hw
      · exact hv
    · intro w hw u hu
      obtain rfl := List.mem_singleton.mp hu
      simpa using fun same => absent ⟨w, hw, same⟩

theorem mem_of_mem_insertNew {v w : Value} {vs : List Value} (h : w ∈ insertNew v vs) :
    w ∈ vs ∨ w = v := by
  unfold insertNew at h
  split at h
  · exact .inl h
  · simpa using h

theorem mem_insertNew_of_mem {v w : Value} {vs : List Value} (h : w ∈ vs) :
    w ∈ insertNew v vs := by
  unfold insertNew
  split <;> simp [h]

theorem exists_same_insertNew {v : Value} {vs : List Value} (hv : v.IsKey) :
    ∃ w ∈ insertNew v vs, w.same v = true := by
  unfold insertNew
  split
  · exact memberOf_iff.mp ‹_›
  · exact ⟨v, by simp, hv.same_self⟩

/-- The values of a list, without those that equal an earlier one. -/
def distinctOf (vs : List Value) : List Value :=
  vs.foldl (fun seen v => insertNew v seen) []

theorem distinctOf_concat (vs : List Value) (v : Value) :
    distinctOf (vs ++ [v]) = insertNew v (distinctOf vs) := by
  simp [distinctOf]

theorem distinctOf_distinct {vs : List Value} (h : ∀ v ∈ vs, v.IsKey) :
    Distinct (distinctOf vs) := by
  induction vs using List.reverseRecOn with
  | nil => exact .nil
  | append_singleton vs v ih =>
      rw [distinctOf_concat]
      exact insertNew_distinct (h v (by simp)) (ih fun w hw => h w (by simp [hw]))

theorem mem_of_mem_distinctOf {vs : List Value} {w : Value} (h : w ∈ distinctOf vs) : w ∈ vs := by
  induction vs using List.reverseRecOn with
  | nil => simp [distinctOf] at h
  | append_singleton vs v ih =>
      rw [distinctOf_concat] at h
      rcases mem_of_mem_insertNew h with old | rfl
      · simp [ih old]
      · simp

theorem exists_same_distinctOf {vs : List Value} {v : Value} (h : v ∈ vs) (hv : v.IsKey) :
    ∃ w ∈ distinctOf vs, w.same v = true := by
  induction vs using List.reverseRecOn with
  | nil => simp at h
  | append_singleton vs u ih =>
      rw [distinctOf_concat]
      simp only [List.mem_append, List.mem_singleton] at h
      rcases h with old | rfl
      · obtain ⟨w, hw, same⟩ := ih old
        exact ⟨w, mem_insertNew_of_mem hw, same⟩
      · exact exists_same_insertNew hv

/-- Every spelling of a key finds its entry. -/
theorem lookup?_of_mem {key k : Value} {table : List (Value × α)} {a : α}
    (distinct : Distinct (table.map (·.1))) (h : (k, a) ∈ table) (same : k.same key = true) :
    lookup? key table = some a := by
  induction table with
  | nil => simp at h
  | cons e rest ih =>
      obtain ⟨k', b⟩ := e
      simp only [lookup?]
      rcases List.mem_cons.mp h with first | later
      · cases first
        simp [same]
      · have other : k'.same key = false := by
          by_contra equal
          have := distinct.head_ne (List.mem_map_of_mem (f := (·.1)) later) (by simpa using equal)
          simp [same] at this
        simp only [other, Bool.false_eq_true, if_false]
        exact ih distinct.tail later

/-- Only a spelling of its key finds an entry. -/
theorem mem_of_lookup? {key : Value} {table : List (Value × α)} {a : α}
    (h : lookup? key table = some a) : ∃ k, (k, a) ∈ table ∧ k.same key = true := by
  induction table with
  | nil => cases h
  | cons e rest ih =>
      rw [lookup?] at h
      split at h
      · obtain rfl := Option.some.inj h
        exact ⟨e.1, List.mem_cons_self, ‹_›⟩
      · obtain ⟨k, listed, same⟩ := ih h
        exact ⟨k, List.mem_cons_of_mem _ listed, same⟩

/-- A new key is put at the end. -/
theorem insertEntry_of_absent {key : Value} {a : α} {table : List (Value × α)}
    (absent : ∀ e ∈ table, e.1.same key = false) :
    insertEntry key a table = table ++ [(key, a)] := by
  induction table with
  | nil => rfl
  | cons e rest ih =>
      obtain ⟨k, b⟩ := e
      simp only [insertEntry, absent (k, b) (by simp), Bool.false_eq_true, if_false,
        List.cons_append]
      rw [ih fun e he => absent e (by simp [he])]

end Value

end BlockAngular
