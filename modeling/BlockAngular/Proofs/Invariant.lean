import BlockAngular.Model.Formula
import BlockAngular.Proofs.Success

/-! # Invariants of stages

What holds of a state before a stage may still hold after it, whether the stage comes to
its end or fails on the way. For this a stage is taken apart into its steps, and what is
known of the result of one step can be used for the next ones.
-/

namespace BlockAngular

namespace Stage

variable {σ α β : Type}

/-- A stage that keeps an invariant of its state, and whose results have a property. -/
structure Keeps (inv : σ → Prop) (x : Stage σ α) (p : α → Prop := fun _ => True) : Prop where
  ok : ∀ {s a t}, inv s → x s = .ok a t → inv t ∧ p a
  error : ∀ {s e t}, inv s → x s = .error e t → inv t

namespace Keeps

variable {inv : σ → Prop} {p p' : α → Prop} {q : β → Prop} {x : Stage σ α}

theorem imp (h : Keeps inv x p) (weaker : ∀ a, p a → p' a) : Keeps inv x p' :=
  ⟨fun hs made => (h.ok hs made).imp_right (weaker _), h.error⟩

theorem pure {a : α} (h : p a) : Keeps inv (pure a) p := by
  constructor
  · intro s b t hs made
    obtain ⟨rfl, rfl⟩ := pure_ok.mp made
    exact ⟨hs, h⟩
  · intro s e t _ failed
    cases failed

theorem bind {f : α → Stage σ β} (first : Keeps inv x p) (rest : ∀ a, p a → Keeps inv (f a) q) :
    Keeps inv (x >>= f) q := by
  constructor
  · intro s b t hs made
    obtain ⟨a, u, ha, hb⟩ := bind_ok.mp made
    obtain ⟨hu, hp⟩ := first.ok hs ha
    exact (rest a hp).ok hu hb
  · intro s e t hs failed
    change EStateM.bind x f s = _ at failed
    cases ha : x s with
    | ok a u =>
        obtain ⟨hu, hp⟩ := first.ok hs ha
        simp only [EStateM.bind, ha] at failed
        exact (rest a hp).error hu failed
    | error e' u =>
        simp only [EStateM.bind, ha] at failed
        cases failed
        exact first.error hs ha

/-- The state in between has the invariant. -/
theorem get : Keeps inv get inv := by
  constructor
  · intro s a t hs made
    obtain ⟨rfl, rfl⟩ := get_ok.mp made
    exact ⟨hs, hs⟩
  · intro s e t _ failed
    cases failed

theorem set {s : σ} (hs : inv s) : Keeps inv (set s) := by
  constructor
  · intro _ _ t _ made
    obtain rfl := set_ok.mp made
    exact ⟨hs, trivial⟩
  · intro _ e t _ failed
    cases failed

theorem modify {f : σ → σ} (step : ∀ s, inv s → inv (f s)) : Keeps inv (modify f) := by
  constructor
  · intro s _ t hs made
    obtain rfl := modify_ok.mp made
    exact ⟨step s hs, trivial⟩
  · intro s e t _ failed
    cases failed

theorem throw {e : Error} : Keeps inv (throw e : Stage σ α) p := by
  constructor
  · intro s a t _ made
    cases made
  · intro s e t hs failed
    cases failed
    exact hs

theorem ofExcept {r : Except Error α} : Keeps inv (ofExcept r) (r = .ok ·) := by
  cases r with
  | ok a => exact pure rfl
  | error e => exact throw

theorem ofFault {r : Except Fault α} : Keeps inv (ofFault r) (r = .ok ·) := by
  cases r with
  | ok a => exact pure rfl
  | error e => exact throw

/-- What each of some steps keeps is kept by all of them, one after the other. -/
theorem forM {f : α → Stage σ PUnit} {as : List α} (each : ∀ a ∈ as, Keeps inv (f a)) :
    Keeps inv (as.forM f) := by
  induction as with
  | nil => exact pure trivial
  | cons a as ih =>
      obtain ⟨first, rest⟩ := List.forall_mem_cons.mp each
      exact first.bind fun _ _ => ih rest

theorem mapM {f : α → Stage σ β} {as : List α} (each : ∀ a ∈ as, Keeps inv (f a)) :
    Keeps inv (as.mapM f) := by
  induction as with
  | nil => exact pure trivial
  | cons a as ih =>
      obtain ⟨first, rest⟩ := List.forall_mem_cons.mp each
      rw [List.mapM_cons]
      exact first.bind fun _ _ => (ih rest).bind fun _ _ => pure trivial

end Keeps

end Stage

/-- A look-up that keeps an invariant of the state, whatever is looked up. -/
structure Lookup.Keeps {σ : Type} (inv : σ → Prop) (find : Lookup σ) : Prop where
  element : ∀ key, Stage.Keeps inv (find.element key)
  component : ∀ name, Stage.Keeps inv (find.component name)

variable {σ : Type} {inv : σ → Prop} {find : Lookup σ}

open Stage (Keeps)

namespace Formula

theorem readTerms_keeps (h : find.Keeps inv) (terms : List (Value × Key)) :
    Keeps inv (readTerms find terms) := by
  induction terms with
  | nil => exact .pure trivial
  | cons term rest ih =>
      refine .bind .ofFault fun _ _ => .bind (h.element _) fun _ _ => .bind .ofFault fun _ _ => ?_
      exact .bind ih fun _ _ => .pure trivial

mutual

/-- To find out what a formula comes out as is to look names up, and nothing else. -/
theorem operand_keeps (h : find.Keeps inv) (a : Formula) : Keeps inv (a.operand find) := by
  cases a with
  | literal v => exact .pure trivial
  | element key => exact h.element key
  | component name => exact h.component name
  | sum parts => exact .bind (operands_keeps h parts) fun _ _ => .imp .ofFault fun _ _ => trivial
  | sub a b | mul a b | div a b | pow a b =>
      refine .bind (operand_keeps h a) fun _ _ => .bind (operand_keeps h b) fun _ _ => ?_
      exact .imp .ofFault fun _ _ => trivial
  | neg a => exact .bind (operand_keeps h a) fun _ _ => .imp .ofFault fun _ _ => trivial
  | function f a => exact .bind (operand_keeps h a) fun _ _ => .imp .ofFault fun _ _ => trivial
  | linear constant terms =>
      exact .bind (readTerms_keeps h terms) fun _ _ => .bind .ofFault fun _ _ => .pure trivial

theorem operands_keeps (h : find.Keeps inv) (parts : List Formula) :
    Keeps inv (operands find parts) := by
  cases parts with
  | nil => exact .pure trivial
  | cons a rest =>
      exact .bind (operand_keeps h a) fun _ _ => .bind (operands_keeps h rest) fun _ _ =>
        .pure trivial

end

theorem operand?_keeps (h : find.Keeps inv) (a : Option Formula) :
    Keeps inv (operand? find a) := by
  cases a with
  | none => exact .pure trivial
  | some a => exact .bind (operand_keeps h a) fun _ _ => .pure trivial

end Formula

namespace Relation

theorem sides_keeps (h : find.Keeps inv) (a b : Formula) : Keeps inv (sides find a b) :=
  .bind (a.operand_keeps h) fun _ _ => .bind (b.operand_keeps h) fun _ _ => .pure trivial

theorem statement_keeps (h : find.Keeps inv) (r : Relation) : Keeps inv (r.statement find) := by
  cases r with
  | range lower body upper =>
      refine .bind (Formula.operand?_keeps h lower) fun _ _ => .bind (body.operand_keeps h)
        fun _ _ => ?_
      exact .bind (Formula.operand?_keeps h upper) fun _ _ => .pure trivial
  | atMost a b | atLeast a b =>
      exact .bind (sides_keeps h a b) fun _ _ => .imp .ofFault fun _ _ => trivial
  | equal a b => exact .bind (sides_keeps h a b) fun _ _ => .pure trivial

end Relation

end BlockAngular
