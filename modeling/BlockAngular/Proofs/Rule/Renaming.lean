import BlockAngular.Proofs.Rule.Order
import BlockAngular.Proofs.Rule.Patterns
import BlockAngular.Proofs.Rule.Variables

/-! # Captured names are bound

The names that a pattern captures are variables of the id behind the arrow. Other names do as well,
in the pattern and in the id alike, if they hide nothing else that the id uses; and what the caller
provides under captured names, or under names that the id does not use, has no effect.
-/

namespace BlockAngular

namespace Rule

/-- The expression that one side of a rule is read as. -/
def tree? (text : List Char) : Option Expr :=
  let trimmed := Text.trimBlanks text
  if trimmed.any (·.toNat == 0) then none else Expr.ofText? trimmed

/-- The expressions that the pattern and the destination of a rule are read as. -/
def trees? (text : String) : Option (Expr × Expr) :=
  match splitArrow? text.toList with
  | none => none
  | some (left, right) => do return (← tree? left, ← tree? right)

theorem readTrimmed_ok {text shown : String} {unreadable : String → Error} {e : Expr} :
    readTrimmed text unreadable = .ok (shown, e) ↔
      shown = String.ofList (Text.trimBlanks text.toList) ∧ tree? text.toList = some e := by
  unfold readTrimmed tree?
  dsimp only
  split
  · simp
  · split <;> rename_i read <;> simp [read, eq_comm]

/-- A rule with other names for its variables. -/
def Destination.rename (f : String → String) : Destination → Destination
  | .master => .master
  | .subproblem id => .subproblem (id.rename f)

def rename (f : String → String) (rule : Rule) : Rule :=
  ⟨rule.name, rule.indices.map f, rule.destination.rename f⟩

/-- A renaming of bound names: other names stay, and none of those that are used is hidden. -/
structure IsRenaming (f : String → String) (bound : List String) (used : List Expr) : Prop where
  kept : ∀ n, n ∉ bound → f n = n
  named : ∀ n ∈ bound, f n ≠ wildcard
  injective : ∀ n ∈ bound, ∀ k ∈ bound, f n = f k → n = k
  apart : ∀ n ∈ bound, ∀ k, k ∉ bound → Expr.anyMentions k used = true → f n ≠ k

/-- The names that are not bound, but used, mean the same. -/
def Agree (bound : List String) (used : List Expr) (provided provided' : Scope) : Prop :=
  ∀ k, k ∉ bound → Expr.anyMentions k used = true → provided'.value? k = provided.value? k

/-- Wildcards stay, and nothing else becomes one. -/
theorem IsRenaming.wildcard_eq {f : String → String} {names : List String} {used : List Expr}
    (renames : IsRenaming f (Pattern.captured names) used) {n : String} (listed : n ∈ names) :
    (f n != wildcard) = (n != wildcard) := by
  by_cases wild : n = wildcard
  · have free : n ∉ Pattern.captured names := by
      rw [Pattern.captured, List.mem_filter]
      simp [wild]
    rw [renames.kept n free]
  · have bound : n ∈ Pattern.captured names := List.mem_filter.mpr ⟨listed, by simp [wild]⟩
    rw [bne_iff_ne.mpr wild, bne_iff_ne.mpr (renames.named n bound)]

namespace Pattern

theorem readIndices_ok {shown : String} {items : List Expr} {seen names : List String}
    (once : (captured seen).Nodup) : readIndices shown seen items = .ok names ↔
      ∃ more, names = seen ++ more ∧ items = more.map .name ∧ (captured names).Nodup := by
  constructor
  · intro read
    induction items generalizing seen with
    | nil =>
        obtain rfl : seen = names := by simpa [readIndices] using read
        exact ⟨[], by simp, rfl, once⟩
    | cons e items ih =>
        cases e with
        | name id =>
            rw [readIndices] at read
            split at read
            · cases read
            · rename_i new
              obtain ⟨more, rfl, rfl, apart⟩ := ih (nodup_append_of_new once new) read
              exact ⟨id :: more, by simp, rfl, apart⟩
        | _ => simp [readIndices] at read
  · rintro ⟨more, rfl, rfl, apart⟩
    exact readIndices_of_nodup shown apart

/-- The expression is that of the pattern. -/
inductive Denotes : Expr → Pattern → Prop where
  | alone (name : String) : Denotes (.name name) ⟨name, []⟩
  | indexed {name : String} {index : Expr} {indices : List String} :
      positions index = indices.map .name → (captured indices).Nodup →
        Denotes (.subscript (.name name) index) ⟨name, indices⟩

theorem ofText_ok {text : String} {pattern : Pattern} :
    ofText text = .ok pattern ↔ ∃ e, tree? text.toList = some e ∧ Denotes e pattern := by
  have none : (captured []).Nodup := List.nodup_nil
  simp only [ofText, Success.bind_ok, Prod.exists, readTrimmed_ok]
  constructor
  · rintro ⟨shown, e, ⟨rfl, read⟩, h⟩
    refine ⟨e, read, ?_⟩
    split at h
    · rename_i name
      obtain rfl := Success.pure_ok.mp h
      exact .alone name
    · simp only [Success.bind_ok, Success.pure_ok] at h
      obtain ⟨indices, listed, rfl⟩ := h
      obtain ⟨more, rfl, shape, apart⟩ := (readIndices_ok none).mp listed
      exact .indexed shape apart
    · simp at h
  · rintro ⟨e, read, denotes⟩
    refine ⟨_, e, ⟨rfl, read⟩, ?_⟩
    cases denotes with
    | alone name => rfl
    | indexed shape apart =>
        simp only [Success.bind_ok, Success.pure_ok]
        exact ⟨_, (readIndices_ok none).mpr ⟨_, rfl, shape, apart⟩, rfl⟩

/-- The expression of a pattern with other names for its indices. -/
def renameTree (f : String → String) : Expr → Expr
  | .subscript base index => .subscript base (index.rename f)
  | e => e

/-- The names among the indices of the expression of a pattern. -/
def indexNames : Expr → List String
  | .subscript _ index => (positions index).filterMap fun e =>
    match e with
    | .name n => some n
    | _ => none
  | _ => []

variable {f : String → String}

theorem positions_rename (index : Expr) :
    positions (index.rename f) = (positions index).map (Expr.rename f) := by
  cases index <;> simp [positions, Expr.rename, Expr.renameItems_eq_map]

theorem map_rename_eq_names {items : List Expr} {names : List String} :
    items.map (Expr.rename f) = names.map .name ↔
      ∃ olds : List String, items = olds.map .name ∧ names = olds.map f := by
  constructor
  · intro same
    induction items generalizing names with
    | nil => exact ⟨[], rfl, by simpa using same.symm⟩
    | cons e items ih =>
        cases names with
        | nil => cases same
        | cons name names =>
            obtain ⟨first, others⟩ := List.cons.inj same
            obtain ⟨olds, rfl, rfl⟩ := ih others
            cases e <;> simp only [Expr.rename, reduceCtorEq] at first
            rename_i old
            exact ⟨old :: olds, rfl, by rw [List.map_cons, ← Expr.name.inj first]⟩
  · rintro ⟨olds, rfl, rfl⟩
    simp [Expr.rename, Function.comp_def]

theorem indexNames_of_names {base index : Expr} {names : List String}
    (shape : positions index = names.map .name) : indexNames (.subscript base index) = names := by
  simp [indexNames, shape, List.filterMap_map]

theorem captured_map {names : List String} {used : List Expr}
    (renames : IsRenaming f (captured names) used) :
    captured (names.map f) = (captured names).map f := by
  rw [captured, captured, List.filter_map]
  congr 1
  exact List.filter_congr fun n hn => renames.wildcard_eq hn

theorem Denotes.indexNames {e : Expr} {pattern : Pattern} (denotes : Denotes e pattern) :
    Pattern.indexNames e = pattern.indices := by
  cases denotes with
  | alone => rfl
  | indexed shape => exact indexNames_of_names shape

theorem denotes_renameTree {e : Expr} {used : List Expr} {pattern' : Pattern}
    (renames : IsRenaming f (captured (indexNames e)) used) :
    Denotes (renameTree f e) pattern' ↔
      ∃ pattern, Denotes e pattern ∧ pattern' = ⟨pattern.name, pattern.indices.map f⟩ := by
  constructor
  · intro denotes
    cases e with
    | name id =>
        cases denotes with
        | alone => exact ⟨_, .alone id, rfl⟩
    | subscript base index =>
        cases denotes with
        | @indexed name _ indices shape apart =>
            rw [positions_rename] at shape
            obtain ⟨olds, listed, rfl⟩ := map_rename_eq_names.mp shape
            rw [indexNames_of_names listed] at renames
            rw [captured_map renames] at apart
            exact ⟨⟨name, olds⟩, .indexed listed (apart.of_map f), rfl⟩
    | _ => cases denotes
  · rintro ⟨pattern, denotes, rfl⟩
    cases denotes with
    | alone name => exact .alone name
    | @indexed name index indices shape apart =>
        rw [indexNames_of_names shape] at renames
        refine .indexed ?_ ?_
        · rw [positions_rename]
          exact map_rename_eq_names.mpr ⟨indices, shape, rfl⟩
        · rw [captured_map renames]
          exact List.Nodup.map_on renames.injective apart

end Pattern

namespace Destination

/-- The expression is that of the destination, over the captured names and those that the caller
provides. -/
inductive Denotes (indices : List String) (provided : Scope) : Expr → Destination → Prop where
  | master : Denotes indices provided (.call (.name "master") [] []) .master
  | subproblem {id : Expr} : id.all (Expr.isAllowed (isKnown indices provided)) = true →
      id.all Expr.isWritableHere = true →
        Denotes indices provided (.call (.name "subproblem") [id] []) (.subproblem id)

variable {f : String → String} {indices : List String} {provided provided' : Scope}

theorem reads_iff {text : String} {id : Expr} :
    Reads text id ↔ tree? text.toList = some (.call (.name "subproblem") [id] []) := by
  simp [Reads, readTrimmed_ok]

theorem ofText_ok {text : String} {d : Destination} :
    ofText text indices provided = .ok d ↔
      ∃ e, tree? text.toList = some e ∧ Denotes indices provided e d := by
  constructor
  · intro h
    cases d with
    | subproblem id =>
        have reads := reads_of_ofText h
        obtain ⟨-, allowed, writable⟩ := (ofText_of_reads reads).mp h
        exact ⟨_, reads_iff.mp reads, .subproblem allowed writable⟩
    | master =>
        simp only [ofText, Success.bind_ok, Prod.exists, readTrimmed_ok] at h
        obtain ⟨shown, e, ⟨-, read⟩, h⟩ := h
        refine ⟨e, read, ?_⟩
        split at h
        · rename_i function arguments keywords
          cases keywords with
          | cons => simp at h
          | nil =>
          simp only [List.isEmpty_nil, Bool.not_true, Bool.false_eq_true, if_false] at h
          split at h
          · rename_i named
            split at h
            · rename_i none
              rw [eq_of_beq named, List.isEmpty_iff.mp none]
              exact .master
            · simp at h
          · split at h
            · split at h
              · simp only [Success.bind_ok, Success.pure_ok] at h
                obtain ⟨-, -, -, -, equal⟩ := h
                cases equal
              · simp at h
            · simp at h
        · simp at h
  · rintro ⟨e, read, denotes⟩
    cases denotes with
    | master =>
        simp only [ofText, Success.bind_ok, Prod.exists, readTrimmed_ok]
        exact ⟨_, _, ⟨rfl, read⟩, rfl⟩
    | subproblem allowed writable =>
        exact (ofText_of_reads (reads_iff.mpr read)).mpr ⟨rfl, allowed, writable⟩

/-- The expression of a destination with other names for the variables of its arguments. -/
def renameTree (f : String → String) : Expr → Expr
  | .call function arguments keywords =>
    .call function (Expr.renameItems f arguments) (Expr.renameKeywords f keywords)
  | e => e.rename f

/-- The arguments in the expression of a destination. -/
def arguments : Expr → List Expr
  | .call _ arguments _ => arguments
  | _ => []

theorem renameTree_eq_call {e : Expr} {function : Expr} {arguments : List Expr} :
    renameTree f e = .call function arguments [] ↔
      ∃ olds, e = .call function olds [] ∧ arguments = Expr.renameItems f olds := by
  cases e <;> simp only [renameTree, Expr.rename, reduceCtorEq, false_and, exists_false]
  rename_i olds keywords
  cases keywords <;> simp [Expr.renameKeywords]
  grind

variable {used : List Expr}

/-- The new names are known where the old ones are. -/
theorem isKnown_rename (renames : IsRenaming f (Pattern.captured indices) used)
    (agree : Agree (Pattern.captured indices) used provided provided') {n : String}
    (mentioned : Expr.anyMentions n used = true) :
    isKnown (indices.map f) provided' (f n) = isKnown indices provided n := by
  by_cases bound : n ∈ Pattern.captured indices
  · obtain ⟨listed, own⟩ := List.mem_filter.mp bound
    have there : f n ∈ indices.map f := List.mem_map_of_mem listed
    have new : (f n != wildcard) = true := bne_iff_ne.mpr (renames.named n bound)
    simp only [isKnown, own, new, List.contains_iff_mem.mpr there, List.contains_iff_mem.mpr listed,
      Bool.and_self, Bool.true_or]
  · -- It is captured neither before nor after: a captured name may not become one that is used.
    have old : (n != wildcard && indices.contains n) = false := by
      by_contra captured
      rw [Bool.not_eq_false, Bool.and_eq_true, List.contains_iff_mem] at captured
      exact bound (List.mem_filter.mpr captured.symm)
    have new : (n != wildcard && (indices.map f).contains n) = false := by
      by_contra captured
      simp only [Bool.not_eq_false, Bool.and_eq_true, List.contains_iff_mem, List.mem_map,
        bne_iff_ne] at captured
      obtain ⟨own, k, listed, same⟩ := captured
      by_cases boundK : k ∈ Pattern.captured indices
      · exact renames.apart k boundK n bound mentioned same
      · have kept := renames.kept k boundK
        have both : (k != wildcard) = true := bne_iff_ne.mpr (by rwa [← kept, same])
        exact boundK (List.mem_filter.mpr ⟨listed, both⟩)
    rw [renames.kept n bound, isKnown, isKnown, old, new, Scope.has_eq_isSome, Scope.has_eq_isSome,
      agree n bound mentioned]

theorem all_isAllowed {id : Expr} (renames : IsRenaming f (Pattern.captured indices) [id])
    (agree : Agree (Pattern.captured indices) [id] provided provided') :
    (id.rename f).all (Expr.isAllowed (isKnown (indices.map f) provided')) =
      id.all (Expr.isAllowed (isKnown indices provided)) :=
  Expr.all_isAllowed_rename id fun _ mentioned =>
    isKnown_rename renames agree (Expr.anyMentions_of_mem List.mem_cons_self mentioned)

/-- The destination with other names is that of the expression with other names. -/
theorem denotes_renameTree {e : Expr} {d' : Destination}
    (renames : IsRenaming f (Pattern.captured indices) (arguments e))
    (agree : Agree (Pattern.captured indices) (arguments e) provided provided') :
    Denotes (indices.map f) provided' (renameTree f e) d' ↔
      ∃ d, Denotes indices provided e d ∧ d' = d.rename f := by
  constructor
  · intro denotes
    generalize shape : renameTree f e = e' at denotes
    cases denotes with
    | master =>
        obtain ⟨olds, rfl, same⟩ := renameTree_eq_call.mp shape
        cases olds with
        | nil => exact ⟨.master, .master, rfl⟩
        | cons => cases same
    | @subproblem id' allowed writable =>
        obtain ⟨olds, rfl, same⟩ := renameTree_eq_call.mp shape
        match olds, same with
        | [id], same =>
            obtain rfl : id' = id.rename f := by simpa [Expr.renameItems] using same
            have allowed' := (all_isAllowed renames agree).symm.trans allowed
            have accepted := Expr.accepted_of_all id allowed'
            rw [accepted.all_isWritableHere_rename] at writable
            exact ⟨.subproblem id, .subproblem allowed' writable, rfl⟩
  · rintro ⟨d, denotes, rfl⟩
    cases denotes with
    | master => exact .master
    | @subproblem id allowed writable =>
        have accepted := Expr.accepted_of_all id allowed
        refine .subproblem ((all_isAllowed renames agree).trans allowed) ?_
        rwa [accepted.all_isWritableHere_rename]

end Destination

/-- The second text is the first one with other names for what it captures. -/
structure IsRenamed (f : String → String) (text text' : String) : Prop where
  trees : trees? text' = (trees? text).map fun (pattern, destination) =>
    (Pattern.renameTree f pattern, Destination.renameTree f destination)
  renames : ∀ pattern destination, trees? text = some (pattern, destination) →
    IsRenaming f (Pattern.captured (Pattern.indexNames pattern)) (Destination.arguments destination)

/-- What a rule uses without capturing it means the same. -/
def AgreeOn (text : String) (provided provided' : Scope) : Prop :=
  ∀ pattern destination, trees? text = some (pattern, destination) →
    Agree (Pattern.captured (Pattern.indexNames pattern)) (Destination.arguments destination)
      provided provided'

/-- Names that are new among the bound ones and those that are used hide nothing. -/
theorem IsRenaming.of_fresh {f : String → String} {bound : List String} {used : List Expr}
    (kept : ∀ n, n ∉ bound → f n = n) (named : ∀ n ∈ bound, f n ≠ wildcard)
    (injective : ∀ n ∈ bound, ∀ k ∈ bound, f n = f k → n = k)
    (fresh : ∀ n ∈ bound, f n = n ∨ Expr.anyMentions (f n) used = false) :
    IsRenaming f bound used := by
  refine ⟨kept, named, injective, ?_⟩
  rintro n own k free mentioned rfl
  rcases fresh n own with same | new
  · rw [same] at free
    exact free own
  · simp [new] at mentioned

theorem isRenaming_self (names : List String) (used : List Expr) :
    IsRenaming (fun n => n) (Pattern.captured names) used := by
  apply IsRenaming.of_fresh
  · exact fun _ _ => rfl
  · intro n own
    exact bne_iff_ne.mp (List.mem_filter.mp own).2
  · exact fun _ _ _ _ same => same
  · exact fun _ _ => .inl rfl

theorem isRenamed_self (text : String) : IsRenamed (fun n => n) text text := by
  have pattern_self (e : Expr) : Pattern.renameTree (fun n => n) e = e := by
    cases e <;> simp [Pattern.renameTree, Expr.rename_self]
  have destination_self (e : Expr) : Destination.renameTree (fun n => n) e = e := by
    cases e <;> simp [Destination.renameTree, Expr.rename_self, Expr.renameItems_self,
      Expr.renameKeywords_self]
  constructor
  · simp [pattern_self, destination_self]
  · intro pattern destination _
    exact isRenaming_self _ _

namespace Written

variable {f : String → String} {w : Written} {id : Expr}

open Destination (callText)
open Printer (nesting testLevel)

/-- The pattern with other names for its indices, and as it is otherwise. -/
def rename (f : String → String) (w : Written) : Written :=
  ⟨w.component, w.indices.map fun s => ⟨s.before, f s.name, s.behind⟩, w.trailing⟩

theorem trees?_text (plain : w.IsPlain) (spelled : id.Spelled) (shallow : nesting testLevel id < 200) :
    trees? (w.text ++ "=>" ++ callText (String.ofList id.text)) =
      some (w.expr, .call (.name "subproblem") [id] []) := by
  have pattern : tree? w.text.toList = some w.expr :=
    (readTrimmed_ok.mp (plain.readTrimmed_text fun _ => .fault .badValue)).2
  have destination := Destination.reads_iff.mp (Destination.reads_source spelled shallow)
  rw [trees?, plain.splitArrow?_text]
  dsimp only
  rw [pattern, destination]
  rfl

theorem indexOf_rename (names : List String) :
    indexOf (names.map f) = (indexOf names).rename f := by
  cases names with
  | nil => rfl
  | cons name names =>
      cases names with
      | nil => rfl
      | cons => simp [indexOf, Expr.rename, Expr.renameItems_eq_map]

theorem expr_rename : (w.rename f).expr = Pattern.renameTree f w.expr := by
  have names : (w.rename f).indices.map (·.name) = (w.indices.map (·.name)).map f := by
    simp [rename]
  have component : (w.rename f).component = w.component := rfl
  have none : (w.rename f).indices.isEmpty = w.indices.isEmpty := by simp [rename]
  rw [expr, expr, names, component, none, indexOf_rename]
  split <;> rfl

theorem indexNames_expr : Pattern.indexNames w.expr = w.pattern.indices := by
  unfold expr
  split
  · rename_i none
    rw [pattern, List.isEmpty_iff.mp none]
    rfl
  · exact Pattern.indexNames_of_names (positions_indexOf _)

/-- A rule is renamed by writing the other names in its pattern and in its id. -/
theorem isRenamed_text (plain : w.IsPlain) (plain' : (w.rename f).IsPlain) (spelled : id.Spelled)
    (spelled' : (id.rename f).Spelled) (shallow : nesting testLevel id < 200)
    (shallow' : nesting testLevel (id.rename f) < 200)
    (renames : IsRenaming f (Pattern.captured w.pattern.indices) [id]) :
    IsRenamed f (w.text ++ "=>" ++ callText (String.ofList id.text))
      ((w.rename f).text ++ "=>" ++ callText (String.ofList (id.rename f).text)) := by
  have read := trees?_text plain spelled shallow
  constructor
  · rw [read, trees?_text plain' spelled' shallow', expr_rename]
    rfl
  · intro pattern destination read'
    obtain ⟨rfl, rfl⟩ := Prod.mk.inj (Option.some.inj (read.symm.trans read'))
    rwa [indexNames_expr]

end Written

section Rename

variable {f : String → String} {provided provided' : Scope} {text text' : String}
  {rule rule' : Rule} {used : List Expr} {index : List Value}

theorem ofText_iff : ofText text provided = .ok rule ↔ ∃ p d, trees? text = some (p, d) ∧
    Pattern.Denotes p ⟨rule.name, rule.indices⟩ ∧
      Destination.Denotes rule.indices provided d rule.destination := by
  unfold ofText trees?
  cases splitArrow? text.toList with
  | none => simp
  | some sides =>
      simp only [Success.bind_ok, Success.pure_ok, Pattern.ofText_ok, Destination.ofText_ok,
        String.toList_ofList, Option.bind_eq_bind, Option.bind_eq_some_iff, Option.pure_def,
        Option.some.injEq, Prod.mk.injEq]
      constructor
      · rintro ⟨pattern, ⟨p, first, denotes⟩, destination, ⟨d, second, denotes'⟩, rfl⟩
        exact ⟨p, d, ⟨p, first, d, second, rfl, rfl⟩, denotes, denotes'⟩
      · rintro ⟨p, d, ⟨_, first, _, second, rfl, rfl⟩, denotes, denotes'⟩
        exact ⟨_, ⟨_, first, denotes⟩, _, ⟨_, second, denotes'⟩, rfl⟩

/-- A renamed text is read as the renamed rule. -/
theorem ofText_renamed (renamed : IsRenamed f text text')
    (agree : AgreeOn text provided provided') : ofText text' provided' = .ok rule' ↔
      ∃ rule, ofText text provided = .ok rule ∧ rule' = rule.rename f := by
  simp only [ofText_iff, renamed.trees]
  cases read : trees? text with
  | none => simp
  | some both =>
      obtain ⟨p, d⟩ := both
      have renames := renamed.renames p d read
      have same := agree p d read
      simp only [Option.map_some, Option.some.injEq, Prod.mk.injEq]
      constructor
      · rintro ⟨_, _, ⟨rfl, rfl⟩, denotes, denotes'⟩
        obtain ⟨⟨name, indices⟩, own, equal⟩ := (Pattern.denotes_renameTree renames).mp denotes
        obtain ⟨name', indices', destination'⟩ := rule'
        cases equal
        rw [own.indexNames] at renames same
        obtain ⟨destination, own', rfl⟩ :=
          (Destination.denotes_renameTree renames same).mp denotes'
        exact ⟨⟨name, indices, destination⟩, ⟨p, d, ⟨rfl, rfl⟩, own, own'⟩, rfl⟩
      · rintro ⟨rule, ⟨_, _, ⟨rfl, rfl⟩, denotes, denotes'⟩, rfl⟩
        refine ⟨_, _, ⟨rfl, rfl⟩, (Pattern.denotes_renameTree renames).mpr ⟨_, denotes, rfl⟩, ?_⟩
        rw [denotes.indexNames] at renames same
        exact (Destination.denotes_renameTree renames same).mpr ⟨_, denotes', rfl⟩

/-- Of the bound names, the new name of one that is used is the new name of no other one. -/
theorem IsRenaming.same_iff {names : List String}
    (renames : IsRenaming f (Pattern.captured names) used) {n k : String}
    (mentioned : Expr.anyMentions n used = true) (bound : k ∈ Pattern.captured names) :
    (f n == f k) = (n == k) := by
  rw [Bool.eq_iff_iff, beq_iff_eq, beq_iff_eq]
  by_cases free : n ∈ Pattern.captured names
  · exact ⟨renames.injective n free k bound, congrArg f⟩
  · have other : n ≠ k := by
      rintro rfl
      exact free bound
    have hidden := renames.apart k bound n free mentioned
    rw [renames.kept n free]
    exact iff_of_false (fun same => hidden same.symm) other

/-- What a captured item is found under. -/
theorem lookup_captures {names : List String} (items : List Value)
    (renames : IsRenaming f (Pattern.captured names) used) {n : String}
    (mentioned : Expr.anyMentions n used = true) :
    List.lookup (f n) (((names.map f).zip items).filter fun entry => entry.1 != wildcard) =
      List.lookup n ((names.zip items).filter fun entry => entry.1 != wildcard) := by
  -- The induction needs of the renaming only what it does to the names that are still to come.
  have wild : ∀ k ∈ names, (f k != wildcard) = (k != wildcard) := fun k hk => renames.wildcard_eq hk
  have same : ∀ k ∈ names, (k != wildcard) = true → (f n == f k) = (n == k) := fun k hk own =>
    renames.same_iff mentioned (List.mem_filter.mpr ⟨hk, own⟩)
  clear renames
  induction names generalizing items with
  | nil => simp
  | cons k names ih =>
      obtain ⟨wildFirst, wildOthers⟩ := List.forall_mem_cons.mp wild
      obtain ⟨sameFirst, sameOthers⟩ := List.forall_mem_cons.mp same
      cases items with
      | nil => simp
      | cons item items =>
          have more := ih items wildOthers sameOthers
          simp only [List.map_cons, List.zip_cons_cons, List.filter_cons, wildFirst]
          split
          · rename_i own
            rw [List.lookup_cons, List.lookup_cons, sameFirst own, more]
          · exact more

/-- The scope of a call holds under the new names what it holds under the old ones. -/
theorem value?_rename (renames : IsRenaming f (Pattern.captured rule.indices) used)
    (agree : Agree (Pattern.captured rule.indices) used provided provided')
    (length : index.length = rule.arity) {n : String}
    (mentioned : Expr.anyMentions n used = true) :
    Scope.value? ((rule.rename f).captures index ++ provided') (f n) =
      Scope.value? (rule.captures index ++ provided) n := by
  have own : List.lookup (f n) ((rule.rename f).captures index) =
      List.lookup n (rule.captures index) := lookup_captures index renames mentioned
  rw [Scope.value?, Scope.value?, List.lookup_append, List.lookup_append, own]
  by_cases bound : n ∈ Pattern.captured rule.indices
  · -- The call has an item for it, so the namespaces are not asked.
    have known : Destination.isKnown rule.indices [] n = true := by
      obtain ⟨listed, named⟩ := List.mem_filter.mp bound
      simp [Destination.isKnown, named, listed, -bne_iff_ne]
    have matched : rule.matchesKey ⟨rule.name, index⟩ = true := by simp [matchesKey, length]
    obtain ⟨v, found⟩ := Scope.exists_value (has_captures n [] matched known)
    rw [List.append_nil, Scope.value?] at found
    simp [found]
  · have provides := agree n bound mentioned
    rw [renames.kept n bound]
    simp only [Scope.value?] at provides
    rw [provides]

/-- Rules that decide alike in their namespaces. -/
structure DecidesAs (provided provided' : Scope) (rule rule' : Rule) : Prop where
  signature : Classifier.signature rule' = Classifier.signature rule
  block : ∀ index : List Value, index.length = rule.arity →
    rule'.block provided' index = rule.block provided index

/-- A renamed rule decides as the rule that it comes from. -/
theorem decidesAs_rename (renamed : IsRenamed f text text') (agree : AgreeOn text provided provided')
    (read : ofText text provided = .ok rule) :
    DecidesAs provided provided' rule (rule.rename f) := by
  obtain ⟨p, d, trees, denotes, denotes'⟩ := ofText_iff.mp read
  have renames := renamed.renames p d trees
  have same := agree p d trees
  rw [denotes.indexNames] at renames same
  refine ⟨by simp [Classifier.signature, arity, rename], ?_⟩
  intro index length
  obtain ⟨name, indices, destination⟩ := rule
  cases denotes' with
  | master => rfl
  | @subproblem id allowed writable =>
      have accepted := Expr.accepted_of_all id allowed
      have evaluated := accepted.evaluate_rename fun n mentioned =>
        value?_rename renames same length
          (Expr.anyMentions_of_mem List.mem_cons_self mentioned)
      exact congrArg (fun v => do return Block.subproblem (← v)) evaluated

theorem exists_renamed (related : AgreeOn text provided provided' ∧ ∃ f, IsRenamed f text text')
    (read : ofText text provided = .ok rule) :
    ∃ rule', ofText text' provided' = .ok rule' ∧ DecidesAs provided provided' rule rule' := by
  obtain ⟨agree, f, renamed⟩ := related
  exact ⟨rule.rename f, (ofText_renamed renamed agree).mpr ⟨rule, read, rfl⟩,
    decidesAs_rename renamed agree read⟩

theorem exists_original (related : AgreeOn text provided provided' ∧ ∃ f, IsRenamed f text text')
    (read' : ofText text' provided' = .ok rule') :
    ∃ rule, ofText text provided = .ok rule ∧ DecidesAs provided provided' rule rule' := by
  obtain ⟨agree, f, renamed⟩ := related
  obtain ⟨rule, read, rfl⟩ := (ofText_renamed renamed agree).mp read'
  exact ⟨rule, read, decidesAs_rename renamed agree read⟩

end Rename

end Rule

namespace Classifier

open Rule (AgreeOn DecidesAs IsRenamed)

variable {provided provided' : Rule.Scope} {lines lines' : List String} {rules rules' : List Rule}

/-- The second list has the rules of the first one with other names for what they capture. -/
def AreRenamed (lines lines' : List String) : Prop :=
  List.Forall₂ (fun text text' => ∃ f, IsRenamed f text text') (ruleLines lines) (ruleLines lines')

theorem signatures_eq (alike : List.Forall₂ (DecidesAs provided provided') rules rules') :
    rules'.map signature = rules.map signature := by
  induction alike with
  | nil => rfl
  | cons first _ ih => rw [List.map_cons, List.map_cons, first.signature, ih]

theorem block_eq (alike : List.Forall₂ (DecidesAs provided provided') rules rules') (key : Key) :
    block ⟨rules', provided'⟩ key = block ⟨rules, provided⟩ key := by
  simp only [block]
  induction alike with
  | nil => rfl
  | @cons rule rule' rules rules' first _ ih =>
      have matches_eq : rule'.matchesKey key = rule.matchesKey key := by
        have same := first.signature
        simp only [signature, Prod.mk.injEq] at same
        rw [Rule.matchesKey, Rule.matchesKey, same.1, same.2]
      rw [List.find?_cons, List.find?_cons, matches_eq]
      cases matched : rule.matchesKey key with
      | false => exact ih
      | true => exact first.block key.index (matchesKey_iff.mp matched).2.symm

/-- Each line of a list has a counterpart, and so has what is read from it. -/
theorem exists_counterparts {R : String → String → Prop} {S S' : String → Rule → Prop}
    {T : Rule → Rule → Prop} (related : List.Forall₂ R lines lines')
    (read : List.Forall₂ S lines rules) (step : ∀ line line' rule, R line line' → S line rule →
      ∃ rule', S' line' rule' ∧ T rule rule') :
    ∃ rules', List.Forall₂ S' lines' rules' ∧ List.Forall₂ T rules rules' := by
  induction related generalizing rules with
  | nil =>
      cases read
      exact ⟨[], .nil, .nil⟩
  | cons first _ ih =>
      cases read with
      | cons own others =>
          obtain ⟨rule', own', same⟩ := step _ _ _ first own
          obtain ⟨rules', others', alike⟩ := ih others
          exact ⟨rule' :: rules', .cons own' others', .cons same alike⟩

theorem ofLines_of_counterparts {c : Classifier} (accepted : ofLines lines provided = .ok c)
    (read : List.Forall₂ (fun line rule => Rule.ofText line provided' = .ok rule)
      (ruleLines lines') rules')
    (signatures : rules'.map signature = c.rules.map signature) :
    ofLines lines' provided' = .ok ⟨rules', provided'⟩ := by
  obtain ⟨-, some, apart, -⟩ := ofLines_iff.mp accepted
  refine ofLines_iff.mpr ⟨read, ?_, ?_, rfl⟩
  · rintro (rfl : rules' = [])
    exact some (List.map_eq_nil_iff.mp signatures.symm)
  · exact signatures ▸ apart

/-- Renamed rules are accepted where the rules are that they come from, and decide alike. -/
theorem decideAlike_of_renamed (renamed : AreRenamed lines lines')
    (agree : ∀ text ∈ ruleLines lines, AgreeOn text provided provided') :
    DecideAlike (ofLines lines provided) (ofLines lines' provided') := by
  have related := (List.forall₂_and_left _ _).mpr ⟨agree, renamed⟩
  apply DecideAlike.of_counterparts
  · intro c accepted
    obtain ⟨read, -, -, given⟩ := ofLines_iff.mp accepted
    obtain ⟨rules', read', alike⟩ :=
      exists_counterparts related read fun _ _ _ => Rule.exists_renamed
    refine ⟨_, ofLines_of_counterparts accepted read' (signatures_eq alike), fun key => ?_⟩
    obtain ⟨rules, provided⟩ := c
    cases given
    simp only [classify, block_eq alike key]
  · intro c' accepted'
    obtain ⟨read', -, -, -⟩ := ofLines_iff.mp accepted'
    obtain ⟨rules, read, alike⟩ :=
      exists_counterparts related.flip read' fun _ _ _ => Rule.exists_original
    exact ⟨_, ofLines_of_counterparts accepted' read (signatures_eq alike.flip).symm⟩

/-- The names that a rule captures are bound: with other names for them the rules are accepted in
the same namespaces and decide alike, and nothing depends on what a namespace holds under names
that a rule captures or does not use. -/
theorem captures_are_bound :
    (∀ (provided : Rule.Scope) (lines lines' : List String), AreRenamed lines lines' →
      DecideAlike (ofLines lines provided) (ofLines lines' provided)) ∧
    ∀ (provided provided' : Rule.Scope) (lines : List String),
      (∀ text ∈ ruleLines lines, AgreeOn text provided provided') →
        DecideAlike (ofLines lines provided) (ofLines lines provided') := by
  constructor
  · intro provided lines lines' renamed
    exact decideAlike_of_renamed renamed fun _ _ _ _ _ _ _ _ => rfl
  · intro provided provided' lines agree
    have renamed : AreRenamed lines lines :=
      List.forall₂_same.mpr fun text _ => ⟨_, Rule.isRenamed_self text⟩
    exact decideAlike_of_renamed renamed agree

namespace Zone

open Rule.Written (isRenamed_text trees?_text)

/-- A pattern with an index of any name and a wildcard behind it. -/
def pattern (index : String) : Rule.Written :=
  ⟨⟨[], "x", []⟩, [⟨[], index, []⟩, ⟨[' '], "_", []⟩], [' ']⟩

/-- What is provided as the zone of an index. -/
def id (index : String) : Rule.Expr :=
  .subscript (.name "zone") (.name index)

/-- Each variable belongs to the zone of its first index. -/
def rule (index : String) : String :=
  "x[" ++ index ++ ", _] =>subproblem(zone[" ++ index ++ "])"

/-- The zones of two indices. -/
def scope : Rule.Scope :=
  [("zone", .table [(.int 1, .str "north"), (.int 2, .str "south")])]

/-- The index is called `k` instead of `m`. -/
def renamed (name : String) : String :=
  if name = "m" then "k" else name

theorem pattern_isPlain {index : String} (plain : Rule.isPlainName index = true) :
    (pattern index).IsPlain where
  names := by
    simp only [pattern, List.forall_mem_cons, plain]
    decide
  before := by simp [pattern]
  behind := by simp [pattern]
  inside := by simp [pattern, Rule.Token.isBlank]
  trailing := by simp [pattern, Text.isBlank]

theorem spelled_id {index : String} (own : Rule.isOwnName index = true) : (id index).Spelled :=
  .subscript (.name (by decide)) (.name own)

theorem mentioned_id {n : String} (h : Rule.Expr.anyMentions n [id "m"] = true) :
    n = "zone" ∨ n = "m" := by
  simp only [id, Rule.Expr.anyMentions_cons, Rule.Expr.mentions_subscript, Bool.or_eq_true,
    Rule.Expr.mentions_name] at h
  rcases h with (zone | index) | none
  · exact .inl zone.symm
  · exact .inr index.symm
  · cases none

theorem isRenaming : Rule.IsRenaming renamed ["m"] [id "m"] := by
  apply Rule.IsRenaming.of_fresh
  · intro n free
    exact if_neg (List.mem_singleton.not.mp free)
  · decide
  · simp
  · simp only [List.mem_singleton, forall_eq]
    exact .inr (by decide)

theorem text_eq_rule (index : String) : (pattern index).text ++ "=>" ++
    Rule.Destination.callText (String.ofList (id index).text) = rule index := by
  rw [← String.toList_inj]
  simp [Rule.Written.text, Rule.Written.indexText, Rule.Written.listText, Rule.Spaced.text, pattern,
    Rule.Destination.callText, Rule.Expr.text, Rule.Printer.text, id, rule, String.toList_append]

theorem isRenamed : IsRenamed renamed (rule "m") (rule "k") := by
  rw [← text_eq_rule, ← text_eq_rule]
  have plain : (pattern "m").IsPlain := pattern_isPlain (by decide)
  have plain' : (pattern "k").IsPlain := pattern_isPlain (by decide)
  exact isRenamed_text plain plain' (spelled_id (by decide)) (spelled_id (by decide)) (by decide)
    (by decide) isRenaming

theorem agreeOn : AgreeOn (rule "m") scope (("m", .int 7) :: ("k", .null) :: scope) := by
  have plain : (pattern "m").IsPlain := pattern_isPlain (by decide)
  rw [← text_eq_rule]
  intro p d read n free mentioned
  have spelled : (id "m").Spelled := spelled_id (by decide)
  have read' := trees?_text plain spelled (by decide)
  obtain ⟨rfl, rfl⟩ := Prod.mk.inj (Option.some.inj (read'.symm.trans read))
  rcases mentioned_id mentioned with rfl | rfl
  · rfl
  · exact absurd List.mem_cons_self free

end Zone

/-- Where each index has a zone, `x[m, _] =>subproblem(zone[m])` can be written with `k` for `m`, and
values of `m` and `k` outside have no effect. -/
theorem captures_are_bound_in_zone :
    AreRenamed [Zone.rule "m"] [Zone.rule "k"] ∧
      (∀ text ∈ ruleLines [Zone.rule "m"],
        AgreeOn text Zone.scope (("m", .int 7) :: ("k", .null) :: Zone.scope)) ∧
      ∃ c c' c'', ofLines [Zone.rule "m"] Zone.scope = .ok c ∧
        ofLines [Zone.rule "k"] Zone.scope = .ok c' ∧
        ofLines [Zone.rule "m"] (("m", .int 7) :: ("k", .null) :: Zone.scope) = .ok c'' ∧
        ∀ key, c.classify key = c'.classify key ∧ c.classify key = c''.classify key := by
  have lines : ruleLines [Zone.rule "m"] = [Zone.rule "m"] := by decide +kernel
  have lines' : ruleLines [Zone.rule "k"] = [Zone.rule "k"] := by decide +kernel
  have areRenamed : AreRenamed [Zone.rule "m"] [Zone.rule "k"] := by
    rw [AreRenamed, lines, lines']
    exact .cons ⟨_, Zone.isRenamed⟩ .nil
  have agree : ∀ text ∈ ruleLines [Zone.rule "m"],
      AgreeOn text Zone.scope (("m", .int 7) :: ("k", .null) :: Zone.scope) := by
    rw [lines]
    exact List.forall_mem_singleton.mpr Zone.agreeOn
  have accepted : (ofLines [Zone.rule "m"] Zone.scope).toOption.isSome = true := by
    decide +kernel
  obtain ⟨c, some⟩ := Option.isSome_iff_exists.mp accepted
  have compiled := Success.toOption_eq_some.mp some
  obtain ⟨either, same⟩ := captures_are_bound.1 Zone.scope _ _ areRenamed
  obtain ⟨either', same'⟩ := captures_are_bound.2 Zone.scope _ _ agree
  obtain ⟨c', compiled'⟩ := either.mp ⟨c, compiled⟩
  obtain ⟨c'', compiled''⟩ := either'.mp ⟨c, compiled⟩
  exact ⟨areRenamed, agree, c, c', c'', compiled, compiled', compiled'', fun key =>
    ⟨same c c' compiled compiled' key, same' c c'' compiled compiled'' key⟩⟩

end Classifier

end BlockAngular
