import BlockAngular.Stage
import Mathlib.Data.List.Forall2

/-! # Successful steps

A sequence of steps that came to its end tells how: every step did, and each of them
went on from what the one before had left. The statements here take such a sequence
apart, one step at a time.
-/

namespace BlockAngular

namespace Success

variable {ε ε' α β γ : Type}

@[simp] theorem bind_ok {x : Except ε α} {f : α → Except ε β} {b : β} :
    (x >>= f) = .ok b ↔ ∃ a, x = .ok a ∧ f a = .ok b := by
  cases x <;> simp [bind, Except.bind]

@[simp] theorem pure_ok {a b : α} : (pure a : Except ε α) = .ok b ↔ a = b := by
  simp [pure, Except.pure]

@[simp] theorem throw_ok {e : ε} {a : α} : (throw e : Except ε α) = .ok a ↔ False := by
  simp [throw, throwThe, MonadExceptOf.throw]

@[simp] theorem map_ok {x : Except ε α} {f : α → β} {b : β} :
    x.map f = .ok b ↔ ∃ a, x = .ok a ∧ f a = b := by
  cases x <;> simp [Except.map]

@[simp] theorem mapError_ok {x : Except ε α} {f : ε → ε'} {a : α} :
    x.mapError f = .ok a ↔ x = .ok a := by
  cases x <;> simp [Except.mapError]

@[simp] theorem ite_error_ok {p : Prop} [Decidable p] {e : ε} {x : Except ε α} {a : α} :
    (if p then .error e else x) = .ok a ↔ ¬p ∧ x = .ok a := by
  by_cases h : p <;> simp [h]

theorem toOption_eq_some {x : Except ε α} {a : α} : x.toOption = some a ↔ x = .ok a := by
  cases x <;> simp [Except.toOption]

/-- A list of steps without a state succeeds with the list of their results. -/
theorem mapM_ok {f : α → Except ε β} {as : List α} {bs : List β} :
    as.mapM f = .ok bs ↔ List.Forall₂ (fun a b => f a = .ok b) as bs := by
  induction as generalizing bs with
  | nil => simp
  | cons a as ih =>
      simp only [List.mapM_cons, bind_ok, pure_ok, ih]
      constructor
      · rintro ⟨b, hb, rest, hrest, rfl⟩
        exact .cons hb hrest
      · rintro (_ | ⟨hb, hrest⟩)
        exact ⟨_, hb, _, hrest, rfl⟩

theorem exists_mapM_ok {f : α → Except ε β} {as : List α} (each : ∀ a ∈ as, ∃ b, f a = .ok b) :
    ∃ bs, as.mapM f = .ok bs := by
  induction as with
  | nil => exact ⟨[], rfl⟩
  | cons a as ih =>
      obtain ⟨⟨b, hb⟩, rest⟩ := List.forall_mem_cons.mp each
      obtain ⟨bs, hbs⟩ := ih rest
      exact ⟨b :: bs, mapM_ok.mpr (.cons hb (mapM_ok.mp hbs))⟩

end Success

namespace Stage

variable {σ α β : Type}

@[simp] theorem bind_ok {ε : Type} {x : EStateM ε σ α} {f : α → EStateM ε σ β} {b : β} {s s' : σ} :
    (x >>= f) s = .ok b s' ↔ ∃ a t, x s = .ok a t ∧ f a t = .ok b s' := by
  show EStateM.bind x f s = _ ↔ _
  cases h : x s <;> simp [EStateM.bind, h]

@[simp] theorem pure_ok {a b : α} {s s' : σ} :
    (pure a : Stage σ α) s = .ok b s' ↔ a = b ∧ s = s' := by
  simp [pure, EStateM.pure]

@[simp] theorem map_ok {x : Stage σ α} {f : α → β} {b : β} {s s' : σ} :
    (f <$> x) s = .ok b s' ↔ ∃ a, x s = .ok a s' ∧ f a = b := by
  rw [map_eq_pure_bind]
  simp only [bind_ok, pure_ok]
  exact ⟨fun ⟨a, _, h, made, same⟩ => ⟨a, same ▸ h, made⟩, fun ⟨a, h, made⟩ => ⟨a, _, h, made, rfl⟩⟩

@[simp] theorem get_ok {s t s' : σ} : (get : Stage σ σ) s = .ok t s' ↔ s = t ∧ s = s' := by
  show EStateM.Result.ok s s = .ok t s' ↔ _
  simp

@[simp] theorem set_ok {s t s' : σ} {u : PUnit} :
    (set t : Stage σ PUnit) s = .ok u s' ↔ t = s' := by
  show EStateM.Result.ok _ t = .ok u s' ↔ _
  simp

@[simp] theorem modify_ok {f : σ → σ} {s s' : σ} {u : PUnit} :
    (modify f : Stage σ PUnit) s = .ok u s' ↔ f s = s' := by
  show EStateM.Result.ok _ (f s) = .ok u s' ↔ _
  simp

@[simp] theorem throw_ok {e : Error} {a : α} {s s' : σ} :
    (throw e : Stage σ α) s = .ok a s' ↔ False := by
  show EStateM.Result.error e s = .ok a s' ↔ _
  simp

@[simp] theorem ofExcept_ok {x : Except Error α} {a : α} {s s' : σ} :
    (ofExcept x : Stage σ α) s = .ok a s' ↔ x = .ok a ∧ s = s' := by
  cases x <;> simp [ofExcept]

@[simp] theorem ofFault_ok {x : Except Fault α} {a : α} {s s' : σ} :
    (ofFault x : Stage σ α) s = .ok a s' ↔ x = .ok a ∧ s = s' := by
  cases x <;> simp [ofFault]

@[simp] theorem finish_ok {x : Stage σ α} {a : α} {s s' : σ} :
    x.finish s = .ok (a, s') ↔ x s = .ok a s' := by
  unfold finish
  cases x s <;> simp

theorem mapM_nil_ok {f : α → Stage σ β} {bs : List β} {s s' : σ} :
    ([].mapM f : Stage σ (List β)) s = .ok bs s' ↔ bs = [] ∧ s = s' := by
  simp [eq_comm]

/-- The first of some steps comes before the others. -/
theorem mapM_cons_ok {f : α → Stage σ β} {a : α} {as : List α} {bs : List β} {s s' : σ} :
    ((a :: as).mapM f) s = .ok bs s' ↔
      ∃ b rest t, f a s = .ok b t ∧ (as.mapM f) t = .ok rest s' ∧ bs = b :: rest := by
  simp only [List.mapM_cons, bind_ok, pure_ok]
  grind

@[simp] theorem forM_nil_ok {f : α → Stage σ PUnit} {u : PUnit} {s s' : σ} :
    (([] : List α).forM f) s = .ok u s' ↔ s = s' := by
  show (pure () : Stage σ PUnit) s = _ ↔ _
  simp

@[simp] theorem forM_cons_ok {f : α → Stage σ PUnit} {a : α} {as : List α} {u : PUnit} {s s' : σ} :
    ((a :: as).forM f) s = .ok u s' ↔ ∃ t, f a s = .ok () t ∧ (as.forM f) t = .ok u s' := by
  show (f a >>= fun _ => as.forM f) s = _ ↔ _
  rw [bind_ok]
  exact ⟨fun ⟨_, t, steps⟩ => ⟨t, steps⟩, fun ⟨t, steps⟩ => ⟨(), t, steps⟩⟩

/-- Steps of which none changes the state give the list of their results. -/
theorem mapM_ok_of_constant {f : α → Stage σ β} {P : α → β → Prop} {as : List α} {bs : List β}
    {s s' : σ} (constant : ∀ a ∈ as, ∀ b t, f a s = .ok b t → P a b ∧ t = s)
    (h : (as.mapM f) s = .ok bs s') : List.Forall₂ P as bs ∧ s' = s := by
  induction as generalizing bs with
  | nil =>
      obtain ⟨rfl, rfl⟩ := mapM_nil_ok.mp h
      exact ⟨.nil, rfl⟩
  | cons a as ih =>
      obtain ⟨b, rest, t, hb, hrest, rfl⟩ := mapM_cons_ok.mp h
      obtain ⟨first, rfl⟩ := constant a (by simp) b t hb
      obtain ⟨others, rfl⟩ := ih (fun a ha => constant a (by simp [ha])) hrest
      exact ⟨.cons first others, rfl⟩

end Stage

end BlockAngular
