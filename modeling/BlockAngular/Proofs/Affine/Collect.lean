import BlockAngular.Affine.Collect
import BlockAngular.Proofs.Expression
import Mathlib.Data.List.Nodup

/-! # Terms are collected by variable

Whatever an expression is like, each of its variables gets at most one term, and there are
no other terms.
-/

namespace BlockAngular

namespace Collected

/-- A property that collecting keeps: adding to the constant, adding a term for a known
variable, and noting that a part is not affine. -/
structure Kept (r : Expression.Reading) (known : Handle → Prop) (P : Collected → Prop) : Prop where
  constant : ∀ {c c' : Collected} {m x : Numeric}, P c → c.addConstant m x = .ok c' → P c'
  term : ∀ {c c' : Collected} {k : Numeric} {h : Handle}, known h → P c →
    c.addVariable r k h = .ok c' → P c'
  spoiled : ∀ {c : Collected}, P c → P c.spoiled

/-- What collecting an operator comes to: what there was, noted as not affine or with something
added to the constant, or a multiple of one of the sides collected. -/
inductive Outcome (r : Expression.Reading) (sides : List Expression) (c : Collected) :
    Collected → Prop
  | unchanged : Outcome r sides c c
  | spoiled : Outcome r sides c c.spoiled
  | constant {m x : Numeric} {c' : Collected} : c.addConstant m x = .ok c' → Outcome r sides c c'
  | side {m : Numeric} {e : Expression} {c' : Collected} : e ∈ sides → add r m e c = .ok c' →
      Outcome r sides c c'

section Outcome

variable {r : Expression.Reading} {m : Numeric} {a b : Expression} {c c' : Collected}

/-- A side of a product that is zero hides the other one. -/
theorem outcome_of_factor {sides : List Expression} {k : Numeric} {x : Except Fault Numeric}
    {e : Expression} (he : e ∈ sides)
    (h : (if k.isZero then return c else do add r (← x) e c) = .ok c') : Outcome r sides c c' := by
  split at h
  · obtain rfl := Except.ok.inj h
    exact .unchanged
  · obtain ⟨m, -, added⟩ := Success.bind_ok.mp h
    exact .side he added

/-- What has no variables is added to the constant. -/
theorem outcome_of_value {sides : List Expression} {x : Except Fault Numeric}
    (h : (do c.addConstant m (← x)) = .ok c') : Outcome r sides c c' := by
  obtain ⟨_, -, added⟩ := Success.bind_ok.mp h
  exact .constant added

theorem mul_outcome (h : add r m (.mul a b) c = .ok c') : Outcome r [a, b] c c' := by
  have first : a ∈ [a, b] := by simp
  have second : b ∈ [a, b] := by simp
  rw [add.eq_def] at h
  split at h
  · exact outcome_of_value h
  dsimp only at h
  split at h
  · obtain ⟨k, -, h⟩ := Success.bind_ok.mp h
    exact outcome_of_factor second h
  split at h
  · obtain ⟨k, -, h⟩ := Success.bind_ok.mp h
    exact outcome_of_factor first h
  obtain ⟨left, -, h⟩ := Success.bind_ok.mp h
  split at h
  · exact outcome_of_factor second h
  obtain ⟨right, -, h⟩ := Success.bind_ok.mp h
  split at h
  · exact outcome_of_factor first h
  · obtain rfl := Except.ok.inj h
    exact .spoiled

theorem div_outcome (h : add r m (.div a b) c = .ok c') : Outcome r [a] c c' := by
  rw [add.eq_def] at h
  split at h
  · exact outcome_of_value h
  obtain ⟨divisor, -, h⟩ := Success.bind_ok.mp h
  split at h
  · simp only [Success.bind_ok] at h
    obtain ⟨x, -, m', -, added⟩ := h
    exact .side (by simp) added
  · obtain rfl := Except.ok.inj h
    exact .spoiled

theorem pow_outcome (h : add r m (.pow a b) c = .ok c') : Outcome r [a] c c' := by
  rw [add.eq_def] at h
  split at h
  · exact outcome_of_value h
  obtain ⟨exponent, -, h⟩ := Success.bind_ok.mp h
  split at h
  · split at h
    · exact .constant h
    split at h
    · exact .side (by simp) h
    obtain ⟨fixed, -, h⟩ := Success.bind_ok.mp h
    split at h
    · simp only [Success.bind_ok] at h
      obtain ⟨x, -, y, -, added⟩ := h
      exact .constant added
    · obtain rfl := Except.ok.inj h
      exact .spoiled
  · obtain rfl := Except.ok.inj h
    exact .spoiled

theorem function_outcome {f : Function} (h : add r m (.function f a) c = .ok c') :
    Outcome r [] c c' := by
  rw [add.eq_def] at h
  split at h
  · exact outcome_of_value h
  obtain ⟨argument, -, h⟩ := Success.bind_ok.mp h
  split at h
  · exact outcome_of_value h
  · obtain rfl := Except.ok.inj h
    exact .spoiled

end Outcome

section Kept

variable {r : Expression.Reading} {known : Handle → Prop} {P : Collected → Prop}

/-- An operator keeps what its steps and its sides keep. -/
theorem Outcome.kept (kept : Kept r known P) {sides : List Expression} {c c' : Collected}
    (start : P c) (h : Outcome r sides c c')
    (each : ∀ e ∈ sides, ∀ m, add r m e c = .ok c' → P c') : P c' := by
  cases h with
  | unchanged => exact start
  | spoiled => exact kept.spoiled start
  | constant added => exact kept.constant start added
  | side he added => exact each _ he _ added

theorem addTerms_kept (kept : Kept r known P) {m : Numeric} {terms : List (Handle × Numeric)}
    (within : ∀ term ∈ terms, known term.1) {c c' : Collected} (start : P c)
    (h : addTerms r m terms c = .ok c') : P c' := by
  induction terms generalizing c with
  | nil =>
      obtain rfl := Except.ok.inj h
      exact start
  | cons term rest ih =>
      obtain ⟨known_first, known_rest⟩ := List.forall_mem_cons.mp within
      simp only [addTerms] at h
      split at h
      · cases h
      · simp only [Success.bind_ok] at h
        obtain ⟨k, -, c₁, added, others⟩ := h
        exact ih known_rest (kept.term known_first start added) others

mutual

/-- Collecting an expression keeps what each of its steps keeps. -/
theorem add_kept (kept : Kept r known P) {m : Numeric} {e : Expression}
    (within : ∀ h ∈ e.vars, known h) {c c' : Collected} (start : P c)
    (h : add r m e c = .ok c') : P c' := by
  have whole := h
  rw [add.eq_def] at h
  split at h
  · exact (outcome_of_value h : Outcome r [] c c').kept kept start (by simp)
  · cases e with
    | number | parameter =>
        obtain rfl := Except.ok.inj h
        exact start
    | «variable» v => exact kept.term (within v (by simp [Expression.vars])) start h
    | linear constant terms =>
        simp only [Success.bind_ok] at h
        obtain ⟨c₁, added, rest⟩ := h
        exact addTerms_kept kept (fun term ht => within _ (List.mem_map_of_mem (f := (·.1)) ht))
          (kept.constant start added) rest
    | named name body => exact add_kept kept (e := body) (by simpa [Expression.vars] using within) start h
    | sum parts => exact addAll_kept kept (by simpa [Expression.vars] using within) start h
    | sub a b =>
        simp only [Expression.vars, List.forall_mem_append] at within
        simp only [Success.bind_ok] at h
        obtain ⟨void, -, h⟩ := h
        split at h
        · simp at h
        · simp only [Success.bind_ok] at h
          obtain ⟨left, added, void', -, h⟩ := h
          have first := add_kept kept within.1 start added
          split at h
          · simp at h
          · exact add_kept kept within.2 first h
    | neg a => exact add_kept kept (e := a) (by simpa [Expression.vars] using within) start h
    | mul a b =>
        simp only [Expression.vars, List.forall_mem_append] at within
        have left : ∀ m, add r m a c = .ok c' → P c' := fun m => add_kept kept within.1 start
        have right : ∀ m, add r m b c = .ok c' → P c' := fun m => add_kept kept within.2 start
        exact (mul_outcome whole).kept kept start (by simpa using ⟨left, right⟩)
    | div a b =>
        simp only [Expression.vars, List.forall_mem_append] at within
        have left : ∀ m, add r m a c = .ok c' → P c' := fun m => add_kept kept within.1 start
        exact (div_outcome whole).kept kept start (by simpa using left)
    | pow a b =>
        simp only [Expression.vars, List.forall_mem_append] at within
        have left : ∀ m, add r m a c = .ok c' → P c' := fun m => add_kept kept within.1 start
        exact (pow_outcome whole).kept kept start (by simpa using left)
    | function f a => exact (function_outcome whole).kept kept start (by simp)
termination_by sizeOf e

theorem addAll_kept (kept : Kept r known P) {m : Numeric} {parts : List Expression}
    (within : ∀ h ∈ Expression.varsOfAll parts, known h) {c c' : Collected} (start : P c)
    (h : addAll r m parts c = .ok c') : P c' := by
  cases parts with
  | nil =>
      rw [addAll.eq_def] at h
      obtain rfl := Except.ok.inj h
      exact start
  | cons part rest =>
      simp only [Expression.varsOfAll, List.forall_mem_append] at within
      rw [addAll.eq_def] at h
      simp only [Success.bind_ok] at h
      obtain ⟨void, -, h⟩ := h
      split at h
      · simp at h
      · simp only [Success.bind_ok] at h
        obtain ⟨c₁, added, others⟩ := h
        exact addAll_kept kept within.2 (add_kept kept within.1 start added) others
termination_by sizeOf parts

end

end Kept

/-- Terms of different variables, all of them known. -/
structure Sorted (known : Handle → Prop) (c : Collected) : Prop where
  nodup : (c.terms.map (·.1)).Nodup
  known : ∀ term ∈ c.terms, known term.1

theorem addTo_keys {h : Handle} {x : Numeric} {terms terms' : List (Handle × Numeric)}
    (added : addTo h x terms = .ok terms') : terms'.map (·.1) =
      if h ∈ terms.map (·.1) then terms.map (·.1) else terms.map (·.1) ++ [h] := by
  induction terms generalizing terms' with
  | nil =>
      obtain rfl := Except.ok.inj added
      rfl
  | cons term rest ih =>
      obtain ⟨k, y⟩ := term
      simp only [addTo] at added
      split at added
      · rename_i equal
        simp only [Success.bind_ok, Success.pure_ok] at added
        obtain ⟨sum, -, rfl⟩ := added
        simp [equal]
      · rename_i other
        simp only [Success.bind_ok, Success.pure_ok] at added
        obtain ⟨rest', addedRest, rfl⟩ := added
        simp only [List.map_cons, ih addedRest, List.mem_cons, Ne.symm other, false_or]
        split <;> rfl

theorem addConstant_terms {c c' : Collected} {m x : Numeric} (h : c.addConstant m x = .ok c') :
    c'.terms = c.terms := by
  simp only [addConstant, Success.bind_ok, Success.pure_ok] at h
  obtain ⟨_, -, _, -, rfl⟩ := h
  rfl

/-- A term for a known variable keeps terms apart. -/
theorem Sorted.addVariable {r : Expression.Reading} {known : Handle → Prop} {c c' : Collected}
    {k : Numeric} {h : Handle} (hknown : known h) (start : c.Sorted known)
    (added : c.addVariable r k h = .ok c') : c'.Sorted known := by
  simp only [Collected.addVariable] at added
  split at added
  · simp only [Success.bind_ok] at added
    obtain ⟨_, -, constant⟩ := added
    have same := addConstant_terms constant
    exact ⟨by rw [same]; exact start.nodup, by rw [same]; exact start.known⟩
  · simp only [Success.bind_ok, Success.pure_ok] at added
    obtain ⟨terms, joined, rfl⟩ := added
    have keys := addTo_keys joined
    have within : ∀ v ∈ terms.map (·.1), known v := by
      rw [keys]
      have old : ∀ v ∈ c.terms.map (·.1), known v := fun v hv => by
        obtain ⟨term, ht, rfl⟩ := List.mem_map.mp hv
        exact start.known term ht
      split
      · exact old
      · exact List.forall_mem_append.mpr ⟨old, by simpa using hknown⟩
    refine ⟨?_, fun term ht => within _ (List.mem_map_of_mem ht)⟩
    rw [keys]
    split
    · exact start.nodup
    · rename_i new
      exact List.Nodup.append start.nodup (List.nodup_singleton h) (by simpa using new)

/-- Collecting keeps terms apart. -/
theorem sorted_kept (r : Expression.Reading) (known : Handle → Prop) :
    Kept r known (Sorted known) where
  constant start added := by
    have same := addConstant_terms added
    exact ⟨by rw [same]; exact start.nodup, by rw [same]; exact start.known⟩
  term hknown start added := start.addVariable hknown added
  spoiled start := ⟨start.nodup, start.known⟩

theorem doubles_keys {terms : List (Handle × Numeric)} {doubled : List (Handle × Float)}
    (h : doubles terms = .ok doubled) : doubled.map (·.1) = terms.map (·.1) := by
  induction terms generalizing doubled with
  | nil =>
      obtain rfl := Except.ok.inj h
      rfl
  | cons term rest ih =>
      simp only [doubles, Success.bind_ok, Success.pure_ok] at h
      obtain ⟨x, -, others, converted, rfl⟩ := h
      simp [ih converted]

theorem form?_vars {c : Collected} {form : AffineForm} (h : c.form? = .ok (some form)) :
    form.vars = (c.terms.filter fun (_, x) => !x.isZero).map (·.1) := by
  simp only [form?] at h
  split at h
  · simp only [Success.bind_ok, Success.pure_ok, Option.some.injEq] at h
    obtain ⟨terms, doubled, _, -, rfl⟩ := h
    exact doubles_keys doubled
  · cases h

end Collected

namespace Expression

/-- An affine form has one term for a variable, and variables of its expression only. -/
theorem affine?_vars {r : Reading} {e : Expression} {form : AffineForm}
    (h : e.affine? r = .ok (some form)) : form.vars.Nodup ∧ ∀ v ∈ form.vars, v ∈ e.vars := by
  have collected : ∀ form, (do (← Collected.add r (.int 1) e .empty).form?) = .ok (some form) →
      form.vars.Nodup ∧ ∀ v ∈ form.vars, v ∈ e.vars := by
    intro form h
    simp only [Success.bind_ok] at h
    obtain ⟨c, added, formed⟩ := h
    have apart := Collected.add_kept (Collected.sorted_kept r (· ∈ e.vars)) (fun _ hv => hv)
      (c := .empty) ⟨.nil, by simp [Collected.empty]⟩ added
    rw [Collected.form?_vars formed]
    refine ⟨apart.nodup.sublist (List.filter_sublist.map _), fun v hv => ?_⟩
    obtain ⟨term, ht, rfl⟩ := List.mem_map.mp hv
    exact apart.known term (List.mem_of_mem_filter ht)
  unfold affine? at h
  split at h
  · split at h
    · simp only [Success.bind_ok, Success.pure_ok, Option.some.injEq] at h
      obtain ⟨x, -, rfl⟩ := h
      exact ⟨.nil, by simp [AffineForm.vars]⟩
    · exact collected form h
  · exact collected form h

theorem affine_ok {r : Reading} {context : String} {e : Expression} {form : AffineForm}
    (h : e.affine r context = .ok form) : e.affine? r = .ok (some form) := by
  unfold affine at h
  split at h <;> simp_all

/-- The affine form over the images has one term for an image. -/
theorem mapped_vars_nodup {r : Reading} {image : Handle → Option Handle} {context : String}
    {e : Expression} {form : AffineForm} (h : e.mapped r image context = .ok form) :
    form.vars.Nodup := by
  unfold mapped at h
  split at h
  · exact (affine?_vars (affine_ok h)).1
  · cases h

end Expression

end BlockAngular
