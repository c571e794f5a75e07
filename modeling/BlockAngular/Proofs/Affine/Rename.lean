import BlockAngular.Proofs.Affine.Collect

/-! # Renaming variables

Collecting does not depend on what variables are called: where no two known variables get
the same new name, an expression with new names has the affine form of the one with the old
names, with the new names in it. Substituting images is such a names.
-/

namespace BlockAngular

/-- Steps that go on alike from what is translated give what is translated. -/
theorem bind_translated {ε α α' β β' : Type} {x : Except ε α} {translate : α → α'}
    {after : β → β'} {k : α → Except ε β} {k' : α' → Except ε β'}
    (step : ∀ a, x = .ok a → k' (translate a) = (k a).map after) :
    (x.map translate >>= k') = (x >>= k).map after := by
  cases x with
  | error => rfl
  | ok a => exact step a rfl

theorem bind_same {ε α β β' : Type} {x : Except ε α} {after : β → β'} {k : α → Except ε β}
    {k' : α → Except ε β'} (step : ∀ a, k' a = (k a).map after) :
    (x >>= k') = (x >>= k).map after := by
  cases x with
  | error => rfl
  | ok a => exact step a

namespace AffineForm

/-- A form with other names for its variables. -/
def rename (f : Handle → Handle) (form : AffineForm) : AffineForm :=
  { form with terms := form.terms.map fun (h, k) => (f h, k) }

end AffineForm

namespace Collected

/-- What was collected with other names for the variables. -/
def rename (f : Handle → Handle) (c : Collected) : Collected :=
  { c with terms := c.terms.map fun (h, k) => (f h, k) }

@[simp] theorem rename_empty (f : Handle → Handle) : empty.rename f = empty := rfl

@[simp] theorem rename_constant (f : Handle → Handle) (c : Collected) :
    (c.rename f).constant = c.constant := rfl

@[simp] theorem rename_isConstant (f : Handle → Handle) (c : Collected) :
    (c.rename f).isConstant = c.isConstant := by
  simp [isConstant, rename, Function.comp_def]

/-- All terms are about known variables. -/
def Within (known : Handle → Prop) (c : Collected) : Prop :=
  ∀ term ∈ c.terms, known term.1

theorem within_empty (known : Handle → Prop) : empty.Within known := by
  simp [Within, empty]

theorem addTo_known {known : Handle → Prop} {h : Handle} (hknown : known h) {x : Numeric}
    {terms terms' : List (Handle × Numeric)} (start : ∀ term ∈ terms, known term.1)
    (added : addTo h x terms = .ok terms') : ∀ term ∈ terms', known term.1 := by
  intro term ht
  have listed := List.mem_map_of_mem (f := (·.1)) ht
  rw [addTo_keys added] at listed
  have old : ∀ v ∈ terms.map (·.1), known v := fun v hv => by
    obtain ⟨term, ht, rfl⟩ := List.mem_map.mp hv
    exact start term ht
  split at listed
  · exact old _ listed
  · rcases List.mem_append.mp listed with before | last
    · exact old _ before
    · rw [List.mem_singleton.mp last]
      exact hknown

theorem within_kept (r : Expression.Reading) (known : Handle → Prop) :
    Kept r known (Within known) where
  constant start added := by
    rw [Within, addConstant_terms added]
    exact start
  term hknown start added := by
    simp only [Collected.addVariable] at added
    split at added
    · simp only [Success.bind_ok] at added
      obtain ⟨_, -, constant⟩ := added
      rw [Within, addConstant_terms constant]
      exact start
    · simp only [Success.bind_ok, Success.pure_ok] at added
      obtain ⟨terms, joined, rfl⟩ := added
      exact addTo_known hknown start joined
  spoiled start := start

theorem addConstant_rename (f : Handle → Handle) (c : Collected) (m x : Numeric) :
    (c.rename f).addConstant m x = (c.addConstant m x).map (rename f) := by
  simp only [addConstant, rename_constant]
  cases scaled m x with
  | error => rfl
  | ok product =>
      simp only [bind, Except.bind]
      cases joined c.constant product <;> rfl

/-- Known variables, new names for them of which no two are equal, and a reading that takes
the new names as the old ones were taken. -/
structure Renaming (r : Expression.Reading) (f : Handle → Handle) (known : Handle → Prop)
    (s : Expression.Reading) : Prop where
  agree : r.Renamed f known s
  injective : ∀ a b, known a → known b → f a = f b → a = b

section Renaming

variable {r s : Expression.Reading} {f : Handle → Handle} {known : Handle → Prop}

theorem addTo_rename (names : Renaming r f known s) {h : Handle} (hknown : known h)
    (x : Numeric) {terms : List (Handle × Numeric)} (within : ∀ term ∈ terms, known term.1) :
    addTo (f h) x (terms.map fun (h, k) => (f h, k)) =
      (addTo h x terms).map (·.map fun (h, k) => (f h, k)) := by
  induction terms with
  | nil => rfl
  | cons term rest ih =>
      obtain ⟨k, y⟩ := term
      obtain ⟨known_first, known_rest⟩ := List.forall_mem_cons.mp within
      simp only [List.map_cons, addTo]
      by_cases equal : k = h
      · subst equal
        simp only [if_true]
        cases Numeric.add y x <;> rfl
      · have apart : f k ≠ f h := fun same => equal (names.injective k h known_first hknown same)
        simp only [equal, apart, if_false, ih known_rest]
        cases addTo h x rest <;> rfl

theorem addVariable_rename (names : Renaming r f known s) {h : Handle} (hknown : known h)
    (k : Numeric) {c : Collected} (within : c.Within known) :
    (c.rename f).addVariable s k (f h) = (c.addVariable r k h).map (rename f) := by
  simp only [addVariable, names.agree.isFixed h hknown, names.agree.current h hknown]
  split
  · cases Expression.readNumber (r.current h) with
    | error => rfl
    | ok x => exact addConstant_rename f c k x
  · simp only [rename, addTo_rename names hknown k within]
    cases addTo h k c.terms <;> rfl

theorem isVoidVariable_rename (names : Renaming r f known s) {h : Handle} (hknown : known h) :
    isVoidVariable s (f h) = isVoidVariable r h := by
  simp [isVoidVariable, names.agree.isFixed h hknown, names.agree.current h hknown]

theorem addTerms_rename (names : Renaming r f known s) (m : Numeric)
    {terms : List (Handle × Numeric)} (within : ∀ term ∈ terms, known term.1) {c : Collected}
    (start : c.Within known) :
    addTerms s m (terms.map fun (h, k) => (f h, k)) (c.rename f) =
      (addTerms r m terms c).map (rename f) := by
  induction terms generalizing c with
  | nil => rfl
  | cons term rest ih =>
      obtain ⟨h, k⟩ := term
      obtain ⟨known_first, known_rest⟩ := List.forall_mem_cons.mp within
      simp only [List.map_cons, addTerms, isVoidVariable_rename names known_first]
      split
      · rfl
      · cases scaled m k with
        | error => rfl
        | ok product =>
            simp only [bind, Except.bind, addVariable_rename names known_first product start]
            cases added : c.addVariable r product h with
            | error => rfl
            | ok c' =>
                exact ih known_rest ((within_kept r known).term known_first start added)

theorem isVoid_rename (names : Renaming r f known s) {e : Expression}
    (within : ∀ h ∈ e.vars, known h) : isVoid s (e.rename f) = isVoid r e := by
  cases e with
  | number | parameter | sum | sub | pow | function | linear | named => rfl
  | «variable» h =>
      simp [Expression.rename, isVoid, isVoidVariable_rename names (within h (by simp [Expression.vars]))]
  | neg a => exact isVoid_rename names (e := a) (by simpa [Expression.vars] using within)
  | mul a b | div a b =>
      simp only [Expression.vars, List.forall_mem_append] at within
      simp [Expression.rename, isVoid, Expression.evaluate_rename names.agree within.1,
        Expression.evaluate_rename names.agree within.2, isVoid_rename names within.1,
        isVoid_rename names within.2]
termination_by sizeOf e

/-- A side of a product that is zero hides the other one, whatever the names. -/
theorem unless_zero_rename {k : Numeric} {c : Collected} {x : Except Fault Numeric}
    {rest rest' : Numeric → Except Fault Collected}
    (step : ∀ m, rest' m = (rest m).map (rename f)) :
    (if k.isZero then return c.rename f else do rest' (← x)) =
      (if k.isZero then return c else do rest (← x)).map (rename f) := by
  split
  · rfl
  · exact bind_same step

/-- A side that is read on its own comes out as the same number, whatever the names. -/
theorem side_rename {x : Except Fault Collected} {rest rest' : Collected → Except Fault Collected}
    {other other' : Except Fault Collected}
    (step : ∀ side, rest' (side.rename f) = (rest side).map (rename f))
    (otherwise : other' = other.map (rename f)) :
    (do
      let side ← x.map (rename f)
      if side.isConstant then rest' side else other') =
    (do
      let side ← x
      if side.isConstant then rest side else other).map (rename f) := by
  refine bind_translated fun side _ => ?_
  rw [rename_isConstant]
  split
  · exact step side
  · exact otherwise

mutual

/-- Collecting an expression with new names collects the terms with the new names. -/
theorem add_rename (names : Renaming r f known s) {m : Numeric} {e : Expression}
    (within : ∀ h ∈ e.vars, known h) {c : Collected} (start : c.Within known) :
    add s m (e.rename f) (c.rename f) = (add r m e c).map (rename f) := by
  have kept := within_kept r known
  rw [add.eq_def s, add.eq_def r, Expression.hasVariables_rename]
  split
  · rw [Expression.evaluate_rename names.agree within]
    exact bind_same fun x => addConstant_rename f c m x
  · cases e with
    | number | parameter => rfl
    | «variable» v => exact addVariable_rename names (within v (by simp [Expression.vars])) m start
    | linear constant terms =>
        have known_terms : ∀ term ∈ terms, known term.1 := fun term ht =>
          within _ (List.mem_map_of_mem (f := (·.1)) ht)
        simp only [Expression.rename, addConstant_rename]
        exact bind_translated fun c' added =>
          addTerms_rename names m known_terms (kept.constant start added)
    | named name body =>
        exact add_rename names (e := body) (by simpa [Expression.vars] using within) start
    | sum parts => exact addAll_rename names (by simpa [Expression.vars] using within) start
    | sub a b =>
        simp only [Expression.vars, List.forall_mem_append] at within
        simp only [Expression.rename, isVoid_rename names within.1, isVoid_rename names within.2,
          add_rename names within.1 start]
        refine bind_same fun void => ?_
        split
        · rfl
        · refine bind_translated fun left added => bind_same fun void => ?_
          split
          · rfl
          · exact add_rename names within.2 (add_kept kept within.1 start added)
    | neg a => exact add_rename names (e := a) (by simpa [Expression.vars] using within) start
    | mul a b =>
        simp only [Expression.vars, List.forall_mem_append] at within
        have empty_left := add_rename names (m := .int 1) within.1 (within_empty known)
        have empty_right := add_rename names (m := .int 1) within.2 (within_empty known)
        have left : ∀ m, add s m (a.rename f) (c.rename f) = (add r m a c).map (rename f) :=
          fun m => add_rename names within.1 start
        have right : ∀ m, add s m (b.rename f) (c.rename f) = (add r m b c).map (rename f) :=
          fun m => add_rename names within.2 start
        rw [rename_empty] at empty_left empty_right
        simp only [Expression.rename, Expression.hasVariables_rename,
          Expression.evaluate_rename names.agree within.1,
          Expression.evaluate_rename names.agree within.2, empty_left, empty_right]
        split
        · exact bind_same fun k => unless_zero_rename right
        · split
          · exact bind_same fun k => unless_zero_rename left
          · refine side_rename (fun _ => unless_zero_rename right) ?_
            refine side_rename (fun _ => unless_zero_rename left) ?_
            rfl
    | div a b =>
        simp only [Expression.vars, List.forall_mem_append] at within
        have empty_right := add_rename names (m := .int 1) within.2 (within_empty known)
        rw [rename_empty] at empty_right
        simp only [Expression.rename, empty_right]
        refine side_rename (fun divisor => ?_) (by rfl)
        exact bind_same fun x => bind_same fun m => add_rename names within.1 start
    | pow a b =>
        simp only [Expression.vars, List.forall_mem_append] at within
        have empty_right := add_rename names (m := .int 1) within.2 (within_empty known)
        rw [rename_empty] at empty_right
        simp only [Expression.rename, empty_right, Expression.isFixed_rename names.agree within.1,
          Expression.evaluate_rename names.agree within.1]
        refine side_rename (fun exponent => ?_) (by rfl)
        rw [rename_constant]
        by_cases zero : exponent.constant.isZero = true
        · simp only [zero, if_true]
          exact addConstant_rename f c m _
        · by_cases one : exponent.constant.isOne = true
          · simp only [zero, one, if_true, if_false, Bool.false_eq_true]
            exact add_rename names within.1 start
          · simp only [zero, one, if_false, Bool.false_eq_true]
            refine bind_same fun fixed => ?_
            split
            · exact bind_same fun x => bind_same fun y => addConstant_rename f c m y
            · rfl
    | function g a =>
        have within : ∀ h ∈ a.vars, known h := by simpa [Expression.vars] using within
        have empty_argument := add_rename names (m := .int 1) within (within_empty known)
        rw [rename_empty] at empty_argument
        simp only [Expression.rename, empty_argument]
        exact side_rename (fun argument => bind_same fun x => addConstant_rename f c m x) (by rfl)
termination_by sizeOf e

theorem addAll_rename (names : Renaming r f known s) {m : Numeric} {parts : List Expression}
    (within : ∀ h ∈ Expression.varsOfAll parts, known h) {c : Collected} (start : c.Within known) :
    addAll s m (Expression.renameAll f parts) (c.rename f) =
      (addAll r m parts c).map (rename f) := by
  rw [addAll.eq_def s, addAll.eq_def r]
  cases parts with
  | nil => rfl
  | cons part rest =>
      simp only [Expression.varsOfAll, List.forall_mem_append] at within
      simp only [Expression.renameAll, isVoid_rename names within.1, add_rename names within.1 start]
      refine bind_same fun void => ?_
      split
      · rfl
      · exact bind_translated fun c' added =>
          addAll_rename names within.2 (add_kept (within_kept r known) within.1 start added)
termination_by sizeOf parts

end

theorem doubles_rename (f : Handle → Handle) (terms : List (Handle × Numeric)) :
    doubles (terms.map fun (h, k) => (f h, k)) =
      (doubles terms).map (·.map fun (h, k) => (f h, k)) := by
  induction terms with
  | nil => rfl
  | cons term rest ih =>
      obtain ⟨h, x⟩ := term
      simp only [List.map_cons, doubles, ih]
      exact bind_same fun y => bind_translated fun others _ => rfl

theorem form?_rename (f : Handle → Handle) (c : Collected) :
    (c.rename f).form? = c.form?.map (Option.map (AffineForm.rename f)) := by
  simp only [form?, rename, List.filter_map, Function.comp_def, doubles_rename]
  split
  · exact bind_translated fun terms _ => bind_same fun x => rfl
  · rfl

end Renaming

end Collected

namespace Expression

section Renaming

variable {r s : Reading} {f : Handle → Handle} {known : Handle → Prop}

/-- The affine form of an expression with new names. -/
theorem affine?_rename (names : Collected.Renaming r f known s) {e : Expression}
    (within : ∀ h ∈ e.vars, known h) :
    (e.rename f).affine? s = (e.affine? r).map (Option.map (AffineForm.rename f)) := by
  have collected : (do (← Collected.add s (.int 1) (e.rename f) .empty).form?) =
      (do (← Collected.add r (.int 1) e .empty).form?).map
        (Option.map (AffineForm.rename f)) := by
    have added := Collected.add_rename names (m := .int 1) within (Collected.within_empty known)
    rw [Collected.rename_empty] at added
    rw [added]
    exact bind_translated fun c _ => Collected.form?_rename f c
  cases e with
  | «variable» h =>
      have hknown := within h (by simp [vars])
      simp only [rename, affine?, names.agree.isFixed h hknown, names.agree.current h hknown]
      split
      · exact bind_same fun x => rfl
      · exact collected
  | _ => exact collected

end Renaming

section Substitute

variable {image : Handle → Option Handle}

/-- The images of variables as names; a variable without an image keeps its own. -/
def nameOf (image : Handle → Option Handle) (h : Handle) : Handle :=
  (image h).getD h

/-- An expression over images, and one over the variables themselves, without names of parts. -/
def Over (image : Handle → Option Handle) (plain overImages : Expression) : Prop :=
  overImages = plain.rename (nameOf image) ∧ ∀ h ∈ plain.vars, ∃ target, image h = some target

theorem substituteTerms_some (terms : List (Handle × Numeric)) :
    substituteTerms some terms = .ok terms := by
  induction terms with
  | nil => rfl
  | cons term rest ih => simp [substituteTerms, ih, bind, Except.bind, pure, Except.pure]

theorem substituteTerms_ok {terms overImages : List (Handle × Numeric)}
    (h : substituteTerms image terms = .ok overImages) :
    substituteTerms some terms = .ok terms ∧
      overImages = terms.map (fun (h, k) => (nameOf image h, k)) ∧
      ∀ term ∈ terms, ∃ target, image term.1 = some target := by
  induction terms generalizing overImages with
  | nil =>
      obtain rfl := Except.ok.inj h
      simp [substituteTerms]
  | cons term rest ih =>
      obtain ⟨v, k⟩ := term
      simp only [substituteTerms] at h
      split at h
      · rename_i target found
        simp only [Success.bind_ok, Success.pure_ok] at h
        obtain ⟨others, substituted, rfl⟩ := h
        obtain ⟨own, rfl, known⟩ := ih substituted
        refine ⟨by simp [substituteTerms, own, bind, Except.bind, pure, Except.pure], ?_, ?_⟩
        · simp [nameOf, found]
        · exact List.forall_mem_cons.mpr ⟨⟨target, found⟩, known⟩
      · cases h

mutual

/-- Substituting images is renaming, after names of parts are dissolved. -/
theorem substitute_ok {e overImages : Expression} (h : e.substitute image = .ok overImages) :
    ∃ plain, e.substitute some = .ok plain ∧ Over image plain overImages := by
  cases e with
  | number | parameter =>
      obtain rfl := Except.ok.inj h
      exact ⟨_, rfl, rfl, by simp [vars]⟩
  | «variable» v =>
      simp only [substitute] at h
      split at h
      · rename_i target found
        obtain rfl := Except.ok.inj h
        exact ⟨_, rfl, by simp [rename, nameOf, found], by simpa [vars] using ⟨target, found⟩⟩
      · cases h
  | sum parts =>
      simp only [substitute, Success.bind_ok, Success.pure_ok] at h
      obtain ⟨others, substituted, rfl⟩ := h
      obtain ⟨plain, own, rfl, known⟩ := substituteAll_ok substituted
      exact ⟨.sum plain, by simp [substitute, own, bind, Except.bind, pure, Except.pure], rfl,
        by simpa [vars] using known⟩
  | sub a b | mul a b | div a b | pow a b =>
      simp only [substitute, Success.bind_ok, Success.pure_ok] at h
      obtain ⟨_, left, _, right, rfl⟩ := h
      obtain ⟨plain, own, rfl, known⟩ := substitute_ok left
      obtain ⟨plain', own', rfl, known'⟩ := substitute_ok right
      exact ⟨_, by simp [substitute, own, own', bind, Except.bind, pure, Except.pure]; rfl, rfl,
        by simpa only [vars] using List.forall_mem_append.mpr ⟨known, known'⟩⟩
  | neg a | function _ a =>
      simp only [substitute, Success.bind_ok, Success.pure_ok] at h
      obtain ⟨_, inner, rfl⟩ := h
      obtain ⟨plain, own, rfl, known⟩ := substitute_ok inner
      exact ⟨_, by simp [substitute, own, bind, Except.bind, pure, Except.pure]; rfl, rfl,
        by simpa only [vars] using known⟩
  | linear constant terms =>
      simp only [substitute, Success.bind_ok, Success.pure_ok] at h
      obtain ⟨others, substituted, rfl⟩ := h
      obtain ⟨own, rfl, known⟩ := substituteTerms_ok substituted
      refine ⟨.linear constant terms,
        by simp [substitute, own, bind, Except.bind, pure, Except.pure], rfl, ?_⟩
      simp only [vars, List.mem_map]
      rintro v ⟨term, ht, rfl⟩
      exact known term ht
  | named name body => exact substitute_ok (e := body) (by simpa [substitute] using h)
termination_by sizeOf e

theorem substituteAll_ok {parts overImages : List Expression}
    (h : substituteAll image parts = .ok overImages) :
    ∃ plain, substituteAll some parts = .ok plain ∧ overImages = renameAll (nameOf image) plain ∧
      ∀ h ∈ varsOfAll plain, ∃ target, image h = some target := by
  cases parts with
  | nil =>
      obtain rfl := Except.ok.inj h
      exact ⟨[], rfl, rfl, by simp [varsOfAll]⟩
  | cons part rest =>
      simp only [substituteAll, Success.bind_ok, Success.pure_ok] at h
      obtain ⟨_, first, _, others, rfl⟩ := h
      obtain ⟨plain, own, rfl, known⟩ := substitute_ok first
      obtain ⟨plains, owns, rfl, knowns⟩ := substituteAll_ok others
      exact ⟨plain :: plains, by simp [substituteAll, own, owns, bind, Except.bind, pure, Except.pure],
        rfl, by simpa only [varsOfAll] using List.forall_mem_append.mpr ⟨known, knowns⟩⟩
termination_by sizeOf parts

end

/-- The affine form over images is the expression's own with the images for names. -/
theorem mapped_ok {r s : Reading}
    (names : Collected.Renaming r (nameOf image) (fun h => ∃ target, image h = some target) s)
    {e : Expression} {context : String} {form : AffineForm}
    (h : e.mapped s image context = .ok form) (own : String) :
    ∃ plain, e.mapped r some own = .ok plain ∧ form = plain.rename (nameOf image) ∧
      ∀ v ∈ plain.vars, ∃ target, image v = some target := by
  simp only [mapped] at h
  split at h
  · rename_i overImages substituted
    obtain ⟨plain, dissolved, rfl, known⟩ := substitute_ok substituted
    have formed := affine_ok h
    rw [affine?_rename names known] at formed
    obtain ⟨found, read, translated⟩ := Success.map_ok.mp formed
    obtain ⟨plainForm, rfl, rfl⟩ := Option.map_eq_some_iff.mp translated
    refine ⟨plainForm, by simp [mapped, dissolved, affine, read], rfl, fun v hv => ?_⟩
    exact known v ((affine?_vars read).2 v hv)
  · cases h

end Substitute

end Expression

end BlockAngular
