import BlockAngular.Proofs.Affine.Dissolve
import BlockAngular.Proofs.Decomposition.Parts
import BlockAngular.Proofs.Number.Binary64

/-! # Sums of products

A sum of products of numbers and different variables is collected term by term: the numbers are
the coefficients, but for zeros, and one number without a variable is the constant. The
expressions are those that the operations on operands make.
-/

namespace BlockAngular

/-- A number as the coefficient of a product, in which every one is the integer. -/
def Numeric.coefficient (k : Numeric) : Numeric :=
  if k.isOne then .int 1 else k

/-- The double that a real number is converted to, and zero where there is none. -/
def Numeric.double (k : Numeric) : Float :=
  k.real.toOption.getD 0.0

theorem Numeric.double_of_real {k : Numeric} {y : Float} (h : k.real = .ok y) : k.double = y := by
  simp [double, h, Except.toOption]

/-- A number is zero as a double if it is zero. -/
theorem Numeric.isZero_double {k : Numeric} {y : Float} (h : k.real = .ok y) :
    Binary64.isZero k.double = k.isZero := by
  rw [double_of_real h]
  cases zero : k.isZero with
  | false => exact Numeric.isZero_of_real zero h
  | true =>
      cases k with
      | int n =>
          obtain rfl : n = 0 := by simpa [isZero] using zero
          have read : toDouble 0 = .ok 0.0 := by decide +kernel
          obtain rfl := Except.ok.inj (read.symm.trans h)
          decide +kernel
      | float x =>
          cases h
          exact zero
      | complex => cases h

/-- Only one is taken for the integer one, so that the double is the same. -/
theorem Numeric.real_coefficient {k : Numeric} {y : Float} (h : k.real = .ok y) :
    k.coefficient.real = .ok y := by
  unfold coefficient
  split
  · rename_i one
    have unit : toDouble 1 = .ok 1.0 := by
      have nearest : Binary64.ofInt? 1 = some 1.0 := by decide +kernel
      rw [toDouble, nearest]
    cases k with
    | int n =>
        obtain rfl : n = 1 := eq_of_beq one
        exact h
    | float x =>
        cases h
        rw [Binary64.eq_one_of_beq one]
        exact unit
    | complex => cases h
  · exact h

theorem Numeric.real_of_double {k : Numeric} (h : ∃ y, k.real = .ok y) : k.real = .ok k.double := by
  obtain ⟨y, read⟩ := h
  rw [read, double_of_real read]

theorem Numeric.double_coefficient {k : Numeric} (h : ∃ y, k.real = .ok y) :
    k.coefficient.double = k.double :=
  double_of_real (real_coefficient (real_of_double h))

/-- A number that has a double has one with the other sign. -/
theorem Numeric.exists_opposite {k : Numeric} (h : ∃ y, k.real = .ok y) :
    ∃ k', Collected.scaled (.int (-1)) k = .ok k' ∧ ∃ y, k'.real = .ok y := by
  obtain ⟨y, read⟩ := h
  cases k with
  | int n =>
      refine ⟨.int (-1 * n), rfl, ?_⟩
      have double : (Binary64.ofInt? n).isSome = true := by
        have own : toDouble n = .ok y := read
        unfold toDouble at own
        split at own
        · rename_i found
          simp [found]
        · cases own
      rw [← Binary64.ofInt?_neg_isSome, Option.isSome_iff_exists] at double
      obtain ⟨z, found⟩ := double
      have opposite : toDouble (-1 * n) = .ok z := by
        rw [toDouble, show -1 * n = -n by omega, found]
      exact ⟨z, opposite⟩
  | float x =>
      have one : toDouble (-1) = .ok (Binary64.nearest (-1 : Int)) := by
        have found : Binary64.ofInt? (-1) = some (Binary64.nearest (-1 : Int)) := by decide +kernel
        rw [toDouble, found]
      refine ⟨.float (Binary64.nearest (-1 : Int) * x), ?_, _, rfl⟩
      simp [Collected.scaled, mul, pair, asDouble, one, bind, Except.bind, pure, Except.pure]
  | complex => cases read

theorem Collected.plainZero_eq (x : Float) :
    plainZero x = if Binary64.isZero x then 0.0 else x := by
  rw [plainZero, Binary64.beq_zero]

/-- The coefficients of keys that are no zeros, as doubles. -/
def Collected.realTerms {α : Type} (terms : List (α × Numeric)) : List (α × Float) :=
  (terms.map fun (a, k) => (a, k.double)).filter fun term => !Binary64.isZero term.2

theorem Collected.realTerms_map {α β : Type} (f : α → β) (terms : List (α × Numeric)) :
    realTerms (terms.map fun (a, k) => (f a, k)) = (realTerms terms).map fun (a, k) => (f a, k) := by
  simp [realTerms, List.filter_map, Function.comp_def]

/-- Real coefficients are read as doubles. -/
theorem Collected.doubles_nonzeros {terms : List (Handle × Numeric)}
    (real : ∀ term ∈ terms, ∃ y, term.2.real = .ok y) :
    doubles (terms.filter fun (_, x) => !x.isZero) = .ok (realTerms terms) := by
  have kept : (terms.filter fun (_, x) => !x.isZero).map (fun (h, k) => (h, k.double)) =
      realTerms terms := by
    rw [realTerms, List.filter_map]
    refine congrArg (List.map _) (List.filter_congr fun term ht => ?_)
    obtain ⟨y, read⟩ := real term ht
    simp [Numeric.isZero_double read]
  rw [← kept]
  replace real : ∀ term ∈ terms.filter fun (_, x) => !x.isZero, ∃ y, term.2.real = .ok y :=
    fun term ht => real term (List.mem_of_mem_filter ht)
  generalize terms.filter (fun (_, x) => !x.isZero) = terms at real
  induction terms with
  | nil => rfl
  | cons term rest ih =>
      obtain ⟨own, others⟩ := List.forall_mem_cons.mp real
      simp [doubles, Numeric.real_of_double own, ih others, bind, Except.bind, pure, Except.pure]

namespace Expression

open Collected

variable {r : Reading}

theorem anyHasVariables_eq (parts : List Expression) :
    anyHasVariables parts = parts.any hasVariables := by
  induction parts with
  | nil => rfl
  | cons part rest ih => rw [anyHasVariables, ih, List.any_cons]

theorem dissolveAll_eq (parts : List Expression) : dissolveAll parts = parts.map dissolve := by
  induction parts with
  | nil => rfl
  | cons part rest ih => rw [dissolveAll, ih, List.map_cons]

theorem varsOfAll_eq (parts : List Expression) : varsOfAll parts = parts.flatMap vars := by
  induction parts with
  | nil => rfl
  | cons part rest ih => rw [varsOfAll, ih, List.flatMap_cons]

/-- An expression that, collected with a multiplier, adds terms with different variables, but for
those with a coefficient of zero, and perhaps a number where there is none yet. -/
structure Collects (r : Reading) (m : Numeric) (x : Option Numeric)
    (terms : List (Handle × Numeric)) (e : Expression) : Prop where
  withVariables : terms ≠ [] → e.hasVariables = true
  dissolved : e.dissolve = e
  vars : e.vars = terms.map (·.1)
  collected : ∀ c : Collected, (x.isSome = true → c.constant = .int 0) →
    ((c.terms ++ terms).map (·.1)).Nodup → add r m e c =
      .ok ⟨x.getD c.constant, c.terms ++ terms.filter fun term => !term.2.isZero, c.affine⟩

namespace Collects

variable {m m' : Numeric} {x y : Option Numeric} {s t : List (Handle × Numeric)} {a b : Expression}

theorem ofNumber {k k' : Numeric} (multiple : Collected.scaled m k = .ok k') :
    Collects r m (some k') [] (.number k) where
  withVariables h := absurd rfl h
  dissolved := rfl
  vars := rfl
  collected c fresh _ := by
    simp [add.eq_def, hasVariables, evaluate, addConstant, multiple, fresh rfl, joined, bind,
      Except.bind, pure, Except.pure]

theorem ofVariable (free : ∀ h, r.isFixed h = false) (nonzero : m.isZero = false) (h : Handle) :
    Collects r m none [(h, m)] (.variable h) where
  withVariables _ := rfl
  dissolved := rfl
  vars := rfl
  collected c _ nodup := by
    have absent : h ∉ c.terms.map (·.1) := fun there => by
      rw [List.map_append] at nodup
      exact (List.nodup_append.mp nodup).2.2 h there h (by simp) rfl
    simp [add.eq_def, hasVariables, addVariable, free, addTo_of_absent absent, nonzero, bind,
      Except.bind, pure, Except.pure]

/-- What two expressions add one after the other. -/
theorem both (ha : Collects r m x s a) (hb : Collects r m' y t b) (one : x = none ∨ y = none)
    (c : Collected) (fresh : (x.or y).isSome = true → c.constant = .int 0)
    (nodup : ((c.terms ++ (s ++ t)).map (·.1)).Nodup) : ∃ left, add r m a c = .ok left ∧
      add r m' b left = .ok ⟨(x.or y).getD c.constant,
        c.terms ++ (s ++ t).filter fun term => !term.2.isZero, c.affine⟩ := by
  have first : ((c.terms ++ s).map (·.1)).Nodup :=
    nodup.sublist ((List.sublist_append_left _ t).map _ |>.trans (by rw [List.append_assoc]))
  refine ⟨_, ha.collected c (fun some => fresh (by cases x <;> simp_all)) first, ?_⟩
  have kept : (c.terms ++ s.filter (fun term => !term.2.isZero) ++ t).Sublist
      (c.terms ++ (s ++ t)) := by
    rw [List.append_assoc]
    exact (List.filter_sublist.append_right t).append_left c.terms
  rw [hb.collected _ (fun some => ?_) (nodup.sublist (kept.map _))]
  · rcases one with rfl | rfl <;> simp
  · rcases one with rfl | rfl
    · simpa using fresh (by simpa using some)
    · cases some

theorem addAll_cons_ok (free : ∀ h, r.isFixed h = false) {part : Expression}
    {rest : List Expression} {c out : Collected} : addAll r m (part :: rest) c = .ok out ↔
      ∃ mid, add r m part c = .ok mid ∧ addAll r m rest mid = .ok out := by
  rw [addAll, ← Success.bind_ok]
  exact (unless_void free .wrongKind part m c fun c => addAll r m rest c).ok_iff out

theorem addAll_concat (free : ∀ h, r.isFixed h = false) {parts : List Expression}
    {c left out : Collected} (first : addAll r m parts c = .ok left)
    (last : add r m b left = .ok out) : addAll r m (parts ++ [b]) c = .ok out := by
  induction parts generalizing c with
  | nil =>
      cases first
      exact (addAll_cons_ok free).mpr ⟨out, last, rfl⟩
  | cons part rest ih =>
      obtain ⟨mid, own, others⟩ := (addAll_cons_ok free).mp first
      exact (addAll_cons_ok free).mpr ⟨mid, own, ih others⟩

theorem add_sum {parts : List Expression} (some : anyHasVariables parts = true) (c : Collected) :
    add r m (.sum parts) c = addAll r m parts c := by
  rw [add.eq_def]
  simp [hasVariables, some]

/-- Two expressions under one sum, in which the second one comes after a part that is a sum. -/
theorem joined (free : ∀ h, r.isFixed h = false) (ha : Collects r m x s a)
    (hb : Collects r m y t b) (one : x = none ∨ y = none) (some : s ++ t ≠ [])
    {parts : List Expression} (parts_eq : parts = [a] ∨ a = .sum parts ∧ s ≠ []) :
    Collects r m (x.or y) (s ++ t) (.sum (parts ++ [b])) := by
  have withVariables : (parts ++ [b]).any hasVariables = true := by
    rcases (not_and_or.mp fun h => some (List.append_eq_nil_iff.mpr h)) with left | right
    · have own := ha.withVariables left
      rcases parts_eq with rfl | ⟨rfl, -⟩
      · simp [own]
      · rw [hasVariables, anyHasVariables_eq] at own
        simp [own]
    · simp [hb.withVariables right]
  refine ⟨fun _ => ?_, ?_, ?_, fun c fresh nodup => ?_⟩
  · rwa [hasVariables, anyHasVariables_eq]
  · have own : parts.map dissolve = parts := by
      rcases parts_eq with rfl | ⟨rfl, -⟩
      · simp [ha.dissolved]
      · simpa [dissolve, dissolveAll_eq] using ha.dissolved
    rw [dissolve, dissolveAll_eq, List.map_append, own, List.map_singleton, hb.dissolved]
  · have own : parts.flatMap Expression.vars = s.map (·.1) := by
      rcases parts_eq with rfl | ⟨rfl, -⟩
      · simp [ha.vars]
      · rw [← varsOfAll_eq]
        exact ha.vars
    rw [Expression.vars, varsOfAll_eq, List.flatMap_append, own, List.flatMap_singleton, hb.vars,
      List.map_append]
  · obtain ⟨left, first, last⟩ := ha.both hb one c fresh nodup
    rw [add_sum (by rwa [anyHasVariables_eq])]
    refine addAll_concat free ?_ last
    rcases parts_eq with rfl | ⟨rfl, there⟩
    · exact (addAll_cons_ok free).mpr ⟨left, first, rfl⟩
    · rw [← add_sum (ha.withVariables there)]
      exact first

theorem plus (free : ∀ h, r.isFixed h = false) (ha : Collects r m x s a)
    (hb : Collects r m y t b) (one : x = none ∨ y = none) (some : s ≠ [])
    (nonzero : b.isLiteralZero = false) : Collects r m (x.or y) (s ++ t) (a.plus b) := by
  have terms : s ++ t ≠ [] := by simp [some]
  have left : a.isLiteralZero = false := by
    simp [isLiteralZero, number?_of_hasVariables (ha.withVariables some)]
  simp only [Expression.plus, left, nonzero, Bool.false_eq_true, if_false]
  split
  · exact joined free ha hb one terms (.inr ⟨rfl, some⟩)
  · exact joined free ha hb one terms (.inl rfl)

/-- A number that is not left out, and an expression. -/
theorem numberPlus (free : ∀ h, r.isFixed h = false) {k k' : Numeric}
    (multiple : Collected.scaled m k = .ok k') (nonzero : k.isZero = false)
    (hb : Collects r m none t b) (some : t ≠ []) : Collects r m (.some k') t (Expression.plus (.number k) b) := by
  have first : (Expression.number k).isLiteralZero = false := by
    simp [isLiteralZero, number?, nonzero]
  have last : b.isLiteralZero = false := by
    simp [isLiteralZero, number?_of_hasVariables (hb.withVariables some)]
  simp only [Expression.plus, first, last, Bool.false_eq_true, if_false]
  simpa using joined free (ofNumber multiple) hb (.inr rfl) (by simpa using some) (.inl rfl)

theorem minus (free : ∀ h, r.isFixed h = false) (ha : Collects r m none s a)
    (hb : Collects r m.neg y t b) (some : s ++ t ≠ []) : Collects r m y (s ++ t) (.sub a b) := by
  have withVariables : (Expression.sub a b).hasVariables = true := by
    rw [hasVariables, Bool.or_eq_true]
    exact (not_and_or.mp fun h => some (List.append_eq_nil_iff.mpr h)).imp ha.withVariables
      hb.withVariables
  refine ⟨fun _ => withVariables, ?_, ?_, fun c fresh nodup => ?_⟩
  · rw [dissolve, ha.dissolved, hb.dissolved]
  · rw [Expression.vars, ha.vars, hb.vars, List.map_append]
  · obtain ⟨left, first, last⟩ := ha.both hb (.inl rfl) c fresh nodup
    rw [add.eq_def]
    simp only [withVariables, Bool.not_true, Bool.false_eq_true, if_false]
    refine ((unless_void free .wrongKind a m c _).ok_iff _).mpr ?_
    rw [first]
    have second := ((unless_void free .wrongKind b m.neg left pure).ok_iff _).mpr
      (by rw [last]; rfl)
    simp only [bind_pure] at second
    exact second

end Collects

/-- The sum of some expressions, one after the other. -/
def sumOf : List Expression → Expression
  | [] => .number (.int 0)
  | e :: rest => rest.foldl plus e

namespace Collects

variable {m : Numeric} {a : Expression} {s : List (Handle × Numeric)}

theorem foldl_plus (free : ∀ h, r.isFixed h = false) {α : Type} {e : α → Expression}
    {terms : α → List (Handle × Numeric)} {items : List α} (ha : Collects r m none s a)
    (some : s ≠ []) (each : ∀ i ∈ items, Collects r m none (terms i) (e i) ∧ terms i ≠ []) :
    Collects r m none (s ++ items.flatMap terms) ((items.map e).foldl Expression.plus a) := by
  induction items generalizing a s with
  | nil => simpa using ha
  | cons i rest ih =>
      obtain ⟨⟨own, there⟩, others⟩ := List.forall_mem_cons.mp each
      have nonzero : (e i).isLiteralZero = false := by
        simp [isLiteralZero, number?_of_hasVariables (own.withVariables there)]
      have next := ih (ha.plus free own (.inl rfl) some nonzero) (by simp [some]) others
      simpa using next

/-- A sum collects what its parts do. -/
theorem sumOf (free : ∀ h, r.isFixed h = false) {α : Type} {e : α → Expression}
    {terms : α → List (Handle × Numeric)} {items : List α} (some : items ≠ [])
    (each : ∀ i ∈ items, Collects r m none (terms i) (e i) ∧ terms i ≠ []) :
    Collects r m none (items.flatMap terms) (sumOf (items.map e)) := by
  cases items with
  | nil => exact absurd rfl some
  | cons i rest =>
      obtain ⟨⟨own, there⟩, others⟩ := List.forall_mem_cons.mp each
      exact own.foldl_plus free there others

/-- A product of a number and a sum of different variables. -/
theorem times {vars : List Handle} (some : vars ≠ [])
    (each : ∀ m : Numeric, m.isZero = false → Collects r m none (vars.map (·, m)) a) (k : Numeric) :
    Collects r (.int 1) none (vars.map (·, k.coefficient)) (Expression.times (.number k) a) := by
  have one := each (.int 1) rfl
  have withVariables : a.hasVariables = true := one.withVariables (by simpa using some)
  have other : a.isLiteralOne = false := by
    simp [isLiteralOne, number?_of_hasVariables withVariables]
  cases unit : k.isOne with
  | true => simpa [Expression.times, isLiteralOne, number?, Numeric.coefficient, unit] using one
  | false =>
      have product : Expression.times (.number k) a = .mul (.number k) a := by
        simp only [Expression.times, other, Bool.false_eq_true, if_false]
        simp [isLiteralOne, number?, unit]
      rw [product, Numeric.coefficient, unit, if_neg Bool.false_ne_true]
      refine ⟨fun _ => by simp [hasVariables, withVariables], ?_, ?_, fun c fresh nodup => ?_⟩
      · rw [dissolve, dissolve, one.dissolved]
      · simpa [Expression.vars, Function.comp_def] using one.vars
      · rw [add.eq_def]
        cases zero : k.isZero with
        | true => simp [hasVariables, withVariables, evaluate, zero, List.filter_map,
            Function.comp_def, bind, Except.bind, pure, Except.pure]
        | false =>
            have collected := (each k zero).collected c fresh nodup
            simpa [hasVariables, withVariables, evaluate, zero, Collected.scaled, bind,
              Except.bind] using collected

/-- The affine form of an expression that adds terms with different variables. -/
theorem affine?_eq (free : ∀ h, r.isFixed h = false) {x : Option Numeric}
    (ha : Collects r (.int 1) x s a) (nodup : (s.map (·.1)).Nodup) (real : ∀ term ∈ s, ∃ y, term.2.real = .ok y)
    (constant : ∃ y, (x.getD (.int 0)).real = .ok y) : a.affine? r =
      .ok (some ⟨plainZero (x.getD (.int 0)).double, realTerms s⟩) := by
  rw [affine?_of_free free, ha.collected .empty (fun _ => rfl) nodup]
  have kept : (s.filter fun term => !term.2.isZero).filter (fun term => !term.2.isZero) =
      s.filter fun term => !term.2.isZero := by simp
  simp [form?, Collected.empty, kept, doubles_nonzeros real, Numeric.real_of_double constant, bind,
    Except.bind, pure, Except.pure]

end Collects

end Expression

namespace Model

variable {m : Model}

/-- The form of an expression that adds terms with the variables of different keys. -/
theorem formOf_eq_formBy (wf : m.WellFormed) {x : Option Numeric} {terms : List (Key × Numeric)}
    {e : Expression} (collects : e.Collects (World.freeReading [m]) (.int 1) x
      (terms.map fun (key, k) => (m.preimageOf key, k)))
    (declared : ∀ term ∈ terms, term.1 ∈ m.variableKeys) (nodup : (terms.map (·.1)).Nodup)
    (real : ∀ term ∈ terms, ∃ y, term.2.real = .ok y)
    (constant : ∃ y, (x.getD (.int 0)).real = .ok y) (context : String) : m.formOf context e =
      .ok (m.formBy (Collected.plainZero (x.getD (.int 0)).double) (Collected.realTerms terms)) := by
  have vars : (terms.map fun (key, k) => (m.preimageOf key, k)).map (·.1) =
      (terms.map (·.1)).map m.preimageOf := by simp [Function.comp_def]
  have known : Expression.unknown? m.itself? e.vars = none := by
    refine Expression.unknown?_eq_none.mpr fun h hh => ⟨h, ?_⟩
    rw [collects.vars, vars] at hh
    obtain ⟨key, hkey, rfl⟩ := List.mem_map.mp hh
    obtain ⟨term, hterm, rfl⟩ := List.mem_map.mp hkey
    simp [itself?, preimageOf_declared wf (declared term hterm)]
  have distinct := preimages_nodup wf (List.forall_mem_map.mpr declared) nodup
  rw [formOf_eq, known]
  dsimp only
  rw [Expression.mapped_some, collects.dissolved, Expression.affine_eq_ok,
    collects.affine?_eq (fun _ => rfl) (vars ▸ distinct) (List.forall_mem_map.mpr real) constant]
  rw [Collected.realTerms_map, formBy]

end Model

end BlockAngular
