import BlockAngular.Value.Order
import Mathlib.Data.List.Chain
import Mathlib.Data.List.Perm.Basic

/-! # Sorting keeps everything

Whatever the comparisons say, sorting ids or index tuples returns what it was given, in
some order. This holds of sorting by runs as well, which is used where a NaN leaves the
values without an order; it leaves no item in front of one that stands before it, and sorts
nothing anew that is sorted already.
-/

namespace BlockAngular

namespace Run

variable {α : Type}

theorem extend_append (goesOn : α → α → Bool) (last : α) (items : List α) :
    (extend goesOn last items).1 ++ (extend goesOn last items).2 = items := by
  induction items generalizing last with
  | nil => rfl
  | cons a rest ih =>
      simp only [extend]
      split
      · simpa using ih a
      · rfl

theorem first_perm (before : α → α → Bool) (items : List α) :
    ((first before items).1 ++ (first before items).2).Perm items := by
  match items with
  | [] => exact .refl _
  | [a] => exact .refl _
  | a :: b :: rest =>
      simp only [first]
      split
      · refine ((List.reverse_perm _).append_right _).trans ?_
        simp [extend_append]
      · simp [extend_append]

theorem insert_perm (before : α → α → Bool) (run : List α) (a : α) :
    (insert before run a).Perm (a :: run) := by
  simp only [insert]
  refine List.perm_middle.trans (.cons a ?_)
  rw [List.take_append_drop]

theorem foldl_insert_perm (before : α → α → Bool) (rest run : List α) :
    (rest.foldl (insert before) run).Perm (run ++ rest) := by
  induction rest generalizing run with
  | nil => simp
  | cons a rest ih =>
      refine (ih _).trans (((insert_perm before run a).append_right rest).trans ?_)
      exact List.perm_middle.symm

theorem sort_perm (before : α → α → Bool) (items : List α) : (sort before items).Perm items :=
  (foldl_insert_perm before _ _).trans (first_perm before items)

section Chains

variable {before : α → α → Bool}

/-- A list in which no item stands before the one in front of it. -/
def IsRun (before : α → α → Bool) (items : List α) : Prop :=
  items.IsChain fun a b => before b a = false

theorem extend_isChain (goesOn : α → α → Bool) (last : α) (items : List α) :
    (last :: (extend goesOn last items).1).IsChain fun a b => goesOn a b = true := by
  induction items generalizing last with
  | nil => exact .singleton last
  | cons a rest ih =>
      simp only [extend]
      split
      · rename_i goes
        exact .cons_cons goes (ih a)
      · exact .singleton last

theorem extend_of_isChain {goesOn : α → α → Bool} {last : α} {items : List α}
    (h : (last :: items).IsChain fun a b => goesOn a b = true) :
    extend goesOn last items = (items, []) := by
  induction items generalizing last with
  | nil => rfl
  | cons a rest ih =>
      obtain ⟨goes, others⟩ := List.isChain_cons_cons.mp h
      simp [extend, goes, ih others]

/-- The run at the start ascends, also where it has been turned round. -/
theorem first_isRun (asymm : ∀ a b, before a b = true → before b a = false) (items : List α) :
    IsRun before (first before items).1 := by
  match items with
  | [] => exact .nil
  | [a] => exact .singleton a
  | a :: b :: rest =>
      simp only [first]
      split
      · rename_i descends
        have run := (extend_isChain (fun x y => before y x) b rest).cons_cons
          (R := fun x y => before y x = true) descends
        exact List.isChain_reverse.mpr (run.imp fun x y => asymm y x)
      · rename_i ascends
        have run := extend_isChain (fun x y => !before y x) b rest
        exact .cons_cons (by simpa using ascends) (run.imp fun x y goes => by simpa using goes)

theorem first_of_isRun {items : List α} (h : IsRun before items) :
    first before items = (items, []) := by
  match items with
  | [] | [_] => rfl
  | a :: b :: rest =>
      obtain ⟨goes, others⟩ := List.isChain_cons_cons.mp h
      have whole : extend (fun x y => !before y x) b rest = (rest, []) :=
        extend_of_isChain (others.imp fun x y goes => by simpa using goes)
      simp [first, goes, whole]

/-- An item is put behind one that it does not stand before, and in front of one that it stands
before. -/
theorem place_between {run : Array α} {a : α} {fuel low high : Nat} (enough : high ≤ low + fuel)
    (ordered : low ≤ high) (within : high ≤ run.size)
    (left : ∀ i, i + 1 = low → ∀ b ∈ run[i]?, before a b = false)
    (right : ∀ b ∈ run[high]?, before a b = true) :
    place before run a fuel low high ≤ high ∧
      (∀ i, i + 1 = place before run a fuel low high → ∀ b ∈ run[i]?, before a b = false) ∧
        ∀ b ∈ run[place before run a fuel low high]?, before a b = true := by
  induction fuel generalizing low high with
  | zero =>
      obtain rfl : low = high := by omega
      exact ⟨le_rfl, left, right⟩
  | succ fuel ih =>
      rw [place]
      by_cases done : high ≤ low
      · obtain rfl : low = high := by omega
        simpa using ⟨left, right⟩
      · rw [if_neg done]
        dsimp only
        have middle : low + (high - low) / 2 < run.size := by omega
        rw [Array.getElem?_eq_getElem middle]
        dsimp only
        split
        · rename_i stands
          have right : ∀ b ∈ run[low + (high - low) / 2]?, before a b = true := by
            simpa [middle] using stands
          obtain ⟨most, between⟩ := ih (by omega) (by omega) (by omega) left right
          exact ⟨by omega, between⟩
        · rename_i stands
          refine ih (by omega) (by omega) within (fun i here b hb => ?_) right
          obtain rfl : i = low + (high - low) / 2 := by omega
          rw [Array.getElem?_eq_getElem middle] at hb
          exact Option.some.inj hb ▸ by simpa using stands

theorem insert_isRun (asymm : ∀ a b, before a b = true → before b a = false) {run : List α}
    (h : IsRun before run) (a : α) : IsRun before (insert before run a) := by
  obtain ⟨most, left, right⟩ := @place_between _ before run.toArray a run.length 0 run.length
    (by simp) (by simp) (by simp) (by simp) (by simp)
  simp only [insert]
  generalize place before run.toArray a run.length 0 run.length = n at most left right
  simp only [List.getElem?_toArray] at left right
  refine List.isChain_append.mpr ⟨h.take n, List.isChain_cons.mpr ⟨fun b hb => ?_, h.drop n⟩,
    fun b hb c hc => ?_⟩
  · rw [List.head?_drop] at hb
    exact asymm a b (right b hb)
  · obtain rfl := Option.some.inj hc
    cases n with
    | zero => simp at hb
    | succ i =>
        obtain ⟨own, here⟩ : ∃ own, run[i]? = some own :=
          ⟨run[i], List.getElem?_eq_getElem (by omega)⟩
        rw [List.getLast?_take, Nat.add_sub_cancel, here] at hb
        exact left i rfl b (here.trans hb)

theorem sort_isRun (asymm : ∀ a b, before a b = true → before b a = false) (items : List α) :
    IsRun before (sort before items) := by
  have insertAll (rest run : List α) (h : IsRun before run) :
      IsRun before (rest.foldl (insert before) run) := by
    induction rest generalizing run with
    | nil => exact h
    | cons a rest ih => exact ih _ (insert_isRun asymm h a)
  exact insertAll _ _ (first_isRun asymm items)

/-- What is sorted already stays. -/
theorem sort_of_isRun {items : List α} (h : IsRun before items) : sort before items = items := by
  rw [sort, first_of_isRun h]
  rfl

end Chains

end Run

namespace Value

theorem sortIds_perm (ids : List Value) : (sortIds ids).Perm ids := by
  unfold sortIds
  split
  · exact Run.sort_perm _ _
  · exact List.mergeSort_perm _ _

theorem sortIndices_perm (indices : List (List Value)) : (sortIndices indices).Perm indices := by
  unfold sortIndices sortByItems
  split
  · exact Run.sort_perm _ _
  · exact List.mergeSort_perm _ _

end Value

end BlockAngular
