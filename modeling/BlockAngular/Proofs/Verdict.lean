import BlockAngular.Proofs.Success

/-! # Verdicts

Whether a step is refused, and why, can be told without its result. The verdict on several
demands is that on the first one which is not met, and the verdict on steps that are done one
after the other is that on the demands that each of them makes.
-/

namespace BlockAngular

/-- Nothing, or the reason for a refusal. -/
abbrev Verdict := Except Error Unit

namespace Verdict

variable {α β : Type}

/-- The verdict on a result. -/
def of (x : Except Error α) : Verdict :=
  x.map fun _ => ()

/-- The verdict on demands in their order. -/
def all : List Verdict → Verdict
  | [] => .ok ()
  | demand :: rest => do
    demand
    all rest

/-- The demand that something holds. -/
def require (p : Prop) [Decidable p] (e : Error) : Verdict :=
  if p then .ok () else .error e

@[simp] theorem of_ok (a : α) : of (.ok a) = .ok () := rfl

@[simp] theorem of_error (e : Error) : of (.error e : Except Error α) = .error e := rfl

@[simp] theorem of_of (v : Verdict) : of v = v := by
  cases v <;> rfl

@[simp] theorem ok_bind (f : Unit → Verdict) : ((.ok () : Verdict) >>= f) = f () := rfl

@[simp] theorem bind_ok (v : Verdict) : (v >>= fun _ => .ok ()) = v := by
  cases v <;> rfl

theorem bind_const_ok (x : Except Error α) : (x >>= fun _ => .ok ()) = of x := by
  cases x <;> rfl

@[simp] theorem all_nil : all [] = .ok () := rfl

@[simp] theorem all_cons (v : Verdict) (rest : List Verdict) :
    all (v :: rest) = (do v; all rest) := rfl

@[simp] theorem all_append (first rest : List Verdict) :
    all (first ++ rest) = (do all first; all rest) := by
  induction first with
  | nil => rfl
  | cons v first ih => cases v <;> simp [ih, bind, Except.bind]

theorem all_flatMap (f : α → List Verdict) (as : List α) :
    all (as.flatMap f) = all (as.map fun a => all (f a)) := by
  induction as with
  | nil => rfl
  | cons a as ih => simp [ih]

theorem of_eq_ok {x : Except Error α} : of x = .ok () ↔ ∃ a, x = .ok a := by
  cases x <;> simp

theorem of_eq_error {x : Except Error α} {e : Error} : of x = .error e ↔ x = .error e := by
  cases x <;> simp

@[simp] theorem require_eq_ok {p : Prop} [Decidable p] {e : Error} :
    require p e = .ok () ↔ p := by
  simp [require]

/-- All demands are met if each is. -/
theorem all_eq_ok {demands : List Verdict} : all demands = .ok () ↔ ∀ v ∈ demands, v = .ok () := by
  induction demands with
  | nil => simp
  | cons v rest ih => cases v <;> simp [← ih, bind, Except.bind]

/-- A refusal names the first demand that is not met. -/
theorem all_eq_error {demands : List Verdict} {e : Error} : all demands = .error e ↔
    ∃ met rest, demands = met ++ .error e :: rest ∧ ∀ v ∈ met, v = .ok () := by
  induction demands with
  | nil => simp
  | cons v demands ih =>
      cases v with
      | ok =>
          rw [all_cons, ok_bind, ih]
          constructor
          · rintro ⟨met, rest, rfl, good⟩
            exact ⟨.ok () :: met, rest, rfl, by simpa using good⟩
          · rintro ⟨met, rest, equal, good⟩
            cases met with
            | nil => simp at equal
            | cons w met =>
                obtain ⟨-, rfl⟩ := List.cons.inj equal
                exact ⟨met, rest, rfl, fun u hu => good u (List.mem_cons_of_mem _ hu)⟩
      | error e' =>
          constructor
          · intro failed
            cases failed
            exact ⟨[], demands, rfl, by simp⟩
          · rintro ⟨met, rest, equal, good⟩
            cases met with
            | nil => rw [(List.cons.inj equal).1]; rfl
            | cons w met =>
                have bad := good w List.mem_cons_self
                rw [← (List.cons.inj equal).1] at bad
                cases bad

/-- The verdict on two steps, of which the second makes demands of its own. -/
theorem of_bind {x : Except Error α} {f : α → Except Error β} (rest : Verdict)
    (then_ : ∀ a, x = .ok a → of (f a) = rest) : of (x >>= f) = (do of x; rest) := by
  cases x with
  | error => rfl
  | ok a => exact then_ a rfl

theorem of_mapM (f : α → Except Error β) (as : List α) :
    of (as.mapM f) = all (as.map fun a => of (f a)) := by
  induction as with
  | nil => rfl
  | cons a as ih =>
      rw [List.mapM_cons, List.map_cons, all_cons, ← ih]
      refine of_bind _ fun b _ => ?_
      cases as.mapM f <;> rfl

/-- The fault of a refusal. -/
def fault? : Verdict → Option Fault
  | .error (.fault cause) => some cause
  | _ => none

theorem eq_error_of_fault? {x : Except Error α} {cause : Fault}
    (h : (of x).fault? = some cause) : x = .error (.fault cause) := by
  cases x with
  | ok a => cases h
  | error e =>
      cases e <;> simp only [of_error, fault?, Option.some.injEq, reduceCtorEq] at h
      rw [h]

end Verdict

namespace Stage

variable {σ α β : Type} {x : Stage σ α} {f : α → Stage σ β} {s t : σ} {a : α}

/-- The verdict on a stage that starts from a state. -/
def verdict (x : Stage σ α) (s : σ) : Verdict :=
  .of (x.finish s)

theorem verdict_eq_ok : x.verdict s = .ok () ↔ ∃ a t, x s = .ok a t := by
  rw [verdict, Verdict.of_eq_ok]
  simp

/-- What a stage does after a step that is done. -/
theorem bind_of_ok (done : x s = .ok a t) : (x >>= f) s = f a t := by
  show EStateM.bind x f s = _
  simp [EStateM.bind, done]

theorem verdict_bind_of_ok (done : x s = .ok a t) : (x >>= f).verdict s = (f a).verdict t := by
  simp only [verdict, finish, bind_of_ok done]

theorem verdict_bind (rest : Verdict) (then_ : ∀ a t, x s = .ok a t → (f a).verdict t = rest) :
    (x >>= f).verdict s = (do x.verdict s; rest) := by
  cases done : x s with
  | ok a t =>
      rw [verdict_bind_of_ok done, verdict_eq_ok.mpr ⟨a, t, done⟩]
      exact then_ a t done
  | error e t =>
      have failed : (x >>= f) s = .error e t := by
        show EStateM.bind x f s = _
        simp [EStateM.bind, done]
      simp only [verdict, finish, failed, done]
      rfl

theorem ofExcept_bind (y : Except Error α) (g : α → Except Error β) :
    (ofExcept (y >>= g) : Stage σ β) = ofExcept y >>= fun a => ofExcept (g a) := by
  cases y <;> rfl

theorem ofFault_eq (y : Except Fault α) : (ofFault y : Stage σ α) = ofExcept (y.mapError .fault) := by
  cases y <;> rfl

@[simp] theorem verdict_pure : (pure a : Stage σ α).verdict s = .ok () := rfl

@[simp] theorem verdict_get_bind {f : σ → Stage σ β} :
    ((get : Stage σ σ) >>= f).verdict s = (f s).verdict s :=
  verdict_bind_of_ok rfl

@[simp] theorem verdict_set_bind {f : PUnit → Stage σ β} :
    ((set t : Stage σ PUnit) >>= f).verdict s = (f ⟨⟩).verdict t :=
  verdict_bind_of_ok rfl

@[simp] theorem verdict_set : (set t : Stage σ PUnit).verdict s = .ok () := rfl

@[simp] theorem verdict_modify {f : σ → σ} : (modify f : Stage σ PUnit).verdict s = .ok () := rfl

@[simp] theorem verdict_ofExcept_bind {y : Except Error α} :
    (ofExcept y >>= f).verdict s = (do (f (← y)).verdict s) := by
  cases y <;> rfl

@[simp] theorem verdict_ofFault_bind {y : Except Fault α} :
    (ofFault y >>= f).verdict s = (do (f (← y.mapError .fault)).verdict s) := by
  cases y <;> rfl

theorem verdict_bind_pure {g : α → β} : (x >>= fun a => pure (g a)).verdict s = x.verdict s := by
  rw [verdict_bind (.ok ()) fun _ _ _ => verdict_pure, Verdict.bind_ok]

/-- Steps that are ready for one after the other, each with demands of its own. -/
theorem verdict_mapM (demand : α → Verdict) (ready : List α → σ → Prop)
    (step : ∀ a rest s, ready (a :: rest) s →
      (f a).verdict s = demand a ∧ ∀ b t, f a s = .ok b t → ready rest t)
    {as : List α} {s : σ} (start : ready as s) :
    (as.mapM f).verdict s = .all (as.map demand) := by
  induction as generalizing s with
  | nil => rfl
  | cons a as ih =>
      obtain ⟨first, next⟩ := step a as s start
      rw [List.mapM_cons, List.map_cons, Verdict.all_cons, ← first]
      refine verdict_bind _ fun b t done => ?_
      rw [verdict_bind_pure]
      exact ih (next b t done)

end Stage

end BlockAngular
