import BlockAngular.Proofs.Rule.Compiled
import Mathlib.Data.List.Perm.Basic

/-! # The order of rules

A set of rules is read line by line, and no two of its rules may decide about the same keys. So a
set is accepted in any order of its lines or in none, and decides about every key alike.
-/

namespace BlockAngular

namespace Classifier

variable {provided : Rule.Scope} {lines lines' : List String} {c c' : Classifier}

/-- A line without a rule: a blank one or a comment. -/
def isIdle (line : String) : Bool :=
  match Text.trimBlanks line.toList with
  | [] => true
  | first :: _ => first == '#'

/-- The lines with rules. -/
def rulesIn (lines : List String) : List String :=
  lines.filter fun line => !isIdle line

theorem ruleLines_eq (lines : List String) :
    ruleLines lines = (rulesIn lines).map fun line => String.ofList (Text.trimBlanks line.toList) := by
  induction lines with
  | nil => rfl
  | cons line rest ih =>
      cases trimmed : Text.trimBlanks line.toList with
      | nil => simpa [ruleLines, rulesIn, isIdle, trimmed] using ih
      | cons first more =>
          by_cases comment : first = '#'
          · simpa [ruleLines, rulesIn, isIdle, trimmed, comment] using ih
          · simpa [ruleLines, rulesIn, isIdle, trimmed, comment] using ih

theorem readAll_ok {rules : List Rule} : readAll provided lines = .ok rules ↔
    List.Forall₂ (fun line rule => Rule.ofText line provided = .ok rule) lines rules := by
  induction lines generalizing rules with
  | nil => simp [readAll, eq_comm]
  | cons line rest ih =>
      simp only [readAll, Success.bind_ok, Success.pure_ok, ih]
      constructor
      · rintro ⟨rule, first, rules, others, rfl⟩
        exact .cons first others
      · rintro (_ | ⟨first, others⟩)
        exact ⟨_, first, _, others, rfl⟩

theorem addAll_of_nodup {done rest : List Rule} (apart : ((done ++ rest).map signature).Nodup) :
    addAll done rest = .ok (done ++ rest) := by
  induction rest generalizing done with
  | nil => simp [addAll]
  | cons rule rest ih =>
      have next : done ++ rule :: rest = done ++ [rule] ++ rest := by simp
      have new : ¬ (done.any fun other => other.name == rule.name && other.arity == rule.arity) := by
        intro taken
        obtain ⟨other, listed, same⟩ := List.any_eq_true.mp taken
        simp only [Bool.and_eq_true, beq_iff_eq] at same
        rw [List.map_append, List.map_cons] at apart
        have both : signature other = signature rule := Prod.ext same.1 same.2
        exact (List.nodup_append.mp apart).2.2 _ (List.mem_map_of_mem listed) _
          List.mem_cons_self both
      rw [next] at apart ⊢
      rw [addAll, if_neg new]
      exact ih apart

/-- What a set of rules is compiled from. -/
theorem ofLines_iff : ofLines lines provided = .ok c ↔
    List.Forall₂ (fun line rule => Rule.ofText line provided = .ok rule) (ruleLines lines) c.rules ∧
      c.rules ≠ [] ∧ (c.rules.map signature).Nodup ∧ c.provided = provided := by
  constructor
  · intro compiled
    obtain ⟨read, given, apart⟩ := ofLines_ok compiled
    refine ⟨readAll_ok.mp read, ?_, apart, given⟩
    intro none
    simp [ofLines, read, none] at compiled
  · rintro ⟨read, some, apart, rfl⟩
    have added : addAll [] c.rules = .ok ([] ++ c.rules) := addAll_of_nodup apart
    simp [ofLines, readAll_ok.mpr read, some, added]

/-- No rule has the name and the number of indices of the key. -/
def LacksRule (c : Classifier) (key : Key) : Prop :=
  ∀ rule ∈ c.rules, ¬ (rule.name = key.name ∧ rule.arity = key.index.length)

/-- A set of rules that is compiled from lines. -/
structure IsCompiled (lines : List String) (c : Classifier) : Prop where
  /-- No two rules have the same name and the same number of indices. -/
  apart : (c.rules.map signature).Nodup
  size_eq : c.size = (rulesIn lines).length
  /-- A key is reported as missing if no rule has its name and its number of indices. -/
  unassigned : ∀ key, c.classify key = .error (.unassigned (.key key) none) ↔ c.LacksRule key
  /-- Nothing else is reported as missing. -/
  missing : ∀ key subject note, c.classify key = .error (.unassigned subject note) →
    subject = .key key ∧ note = none

theorem matchesKey_iff {rule : Rule} {key : Key} :
    rule.matchesKey key = true ↔ rule.name = key.name ∧ rule.arity = key.index.length := by
  simp [Rule.matchesKey]

theorem classify_of_lacksRule {key : Key} (lacks : c.LacksRule key) :
    c.classify key = .error (.unassigned (.key key) none) := by
  have none : c.rules.find? (·.matchesKey key) = none := by
    rw [List.find?_eq_none]
    intro rule listed matched
    exact lacks rule listed (matchesKey_iff.mp matched)
  rw [classify, block, none]
  rfl

/-- A rule that decides about a key never reports it as missing. -/
theorem ne_unassigned_of_matches (compiled : ofLines lines provided = .ok c) {rule : Rule}
    (listed : rule ∈ c.rules) {key : Key} (matched : rule.matchesKey key = true) (subject : Subject)
    (note : Option String) : c.classify key ≠ .error (.unassigned subject note) := by
  have decides := decides_of_ofLines compiled listed matched
  unfold Rule.Decides at decides
  split at decides
  · simp [decides]
  · obtain ⟨-, ⟨v, answer⟩ | ⟨fault, -, answer⟩⟩ := decides
    · simp [answer]
    · simp [answer]

theorem isCompiled (compiled : ofLines lines provided = .ok c) : IsCompiled lines c := by
  obtain ⟨read, -, apart, -⟩ := ofLines_iff.mp compiled
  have lacks (key : Key) (subject : Subject) (note : Option String)
      (failed : c.classify key = .error (.unassigned subject note)) : c.LacksRule key := by
    intro rule listed same
    exact ne_unassigned_of_matches compiled listed (matchesKey_iff.mpr same) subject note failed
  constructor
  · exact apart
  · rw [size, ← read.length_eq, ruleLines_eq, List.length_map]
  · intro key
    exact ⟨lacks key _ _, classify_of_lacksRule⟩
  · intro key subject note failed
    have missing := classify_of_lacksRule (lacks key subject note failed)
    rw [missing] at failed
    cases failed
    exact ⟨rfl, rfl⟩

/-- Lines in another order are read as the rules in another order. -/
theorem ofLines_perm (moved : (rulesIn lines).Perm (rulesIn lines'))
    (compiled : ofLines lines provided = .ok c) :
    ∃ c', ofLines lines' provided = .ok c' ∧ c.rules.Perm c'.rules ∧ c.provided = c'.provided := by
  obtain ⟨read, some, apart, rfl⟩ := ofLines_iff.mp compiled
  have perm : (ruleLines lines').Perm (ruleLines lines) := by
    rw [ruleLines_eq, ruleLines_eq]
    exact moved.symm.map _
  obtain ⟨rules', read', perm'⟩ := List.perm_comp_forall₂ perm read
  refine ⟨⟨rules', c.provided⟩, ofLines_iff.mpr ⟨read', ?_, ?_, rfl⟩, perm'.symm, rfl⟩
  · rintro (rfl : rules' = [])
    exact some perm'.symm.eq_nil
  · exact (perm'.map signature).nodup_iff.mpr apart

/-- With different signatures the order of the rules does not decide which one matches. -/
theorem find?_perm {rules rules' : List Rule} (perm : rules.Perm rules')
    (apart : (rules.map signature).Nodup) (key : Key) :
    rules.find? (·.matchesKey key) = rules'.find? (·.matchesKey key) := by
  cases found : rules'.find? (·.matchesKey key) with
  | none =>
      rw [List.find?_eq_none] at found ⊢
      intro rule listed
      exact found rule (perm.subset listed)
  | some rule =>
      have listed := perm.symm.subset (List.mem_of_find?_eq_some found)
      have matched := List.find?_some found
      exact find?_of_matches apart listed matched

theorem classify_perm (perm : c.rules.Perm c'.rules) (same : c.provided = c'.provided)
    (apart : (c.rules.map signature).Nodup) (key : Key) : c.classify key = c'.classify key := by
  unfold classify block
  rw [find?_perm perm apart key, same]

/-- Both sets of rules are accepted or neither, and accepted sets decide about every key alike. -/
def DecideAlike (x y : Except Error Classifier) : Prop :=
  ((∃ c, x = .ok c) ↔ ∃ c', y = .ok c') ∧
    ∀ c c', x = .ok c → y = .ok c' → ∀ key, c.classify key = c'.classify key

theorem DecideAlike.of_counterparts {x y : Except Error Classifier}
    (forth : ∀ c, x = .ok c → ∃ c', y = .ok c' ∧ ∀ key, c.classify key = c'.classify key)
    (back : ∀ c', y = .ok c' → ∃ c, x = .ok c) : DecideAlike x y := by
  refine ⟨⟨?_, ?_⟩, ?_⟩
  · rintro ⟨c, accepted⟩
    obtain ⟨c', accepted', -⟩ := forth c accepted
    exact ⟨c', accepted'⟩
  · rintro ⟨c', accepted'⟩
    exact back c' accepted'
  · intro c c' accepted accepted'
    obtain ⟨other, found, same⟩ := forth c accepted
    obtain rfl := Except.ok.inj (found.symm.trans accepted')
    exact same

/-- The order of the rules does not matter, nor do blank lines and comments between them. -/
theorem compiles_in_any_order (provided : Rule.Scope) {lines lines' : List String}
    (moved : (rulesIn lines).Perm (rulesIn lines')) :
    DecideAlike (ofLines lines provided) (ofLines lines' provided) ∧
      ∀ c, ofLines lines provided = .ok c → IsCompiled lines c := by
  constructor
  · apply DecideAlike.of_counterparts
    · intro c compiled
      obtain ⟨c', compiled', perm, same⟩ := ofLines_perm moved compiled
      exact ⟨c', compiled', classify_perm perm same (isCompiled compiled).apart⟩
    · intro c' compiled'
      obtain ⟨c, compiled, -⟩ := ofLines_perm moved.symm compiled'
      exact ⟨c, compiled⟩
  · intro c compiled
    exact isCompiled compiled

/-- Three rules in two orders, the second with a comment and a blank line. -/
theorem compiles_in_any_order_of_turned :
    (rulesIn ["x[m, _] => subproblem(m)", "x[m] => subproblem(m)", "z => master()"]).Perm
        (rulesIn ["# by hand", "z => master()", " ", "x[m] => subproblem(m)",
          "x[m, _] => subproblem(m)"]) ∧
      ∃ c c', ofLines ["x[m, _] => subproblem(m)", "x[m] => subproblem(m)", "z => master()"] [] =
          .ok c ∧
        ofLines ["# by hand", "z => master()", " ", "x[m] => subproblem(m)",
          "x[m, _] => subproblem(m)"] [] = .ok c' ∧
        ∀ key, c.classify key = c'.classify key := by
  have moved : (rulesIn ["x[m, _] => subproblem(m)", "x[m] => subproblem(m)", "z => master()"]).Perm
      (rulesIn ["# by hand", "z => master()", " ", "x[m] => subproblem(m)",
        "x[m, _] => subproblem(m)"]) := by
    decide +kernel
  have accepted : (ofLines ["x[m, _] => subproblem(m)", "x[m] => subproblem(m)", "z => master()"]
      []).toOption.isSome = true := by
    decide +kernel
  refine ⟨moved, ?_⟩
  obtain ⟨c, some⟩ := Option.isSome_iff_exists.mp accepted
  have compiled := Success.toOption_eq_some.mp some
  obtain ⟨⟨either, same⟩, -⟩ := compiles_in_any_order [] moved
  obtain ⟨c', compiled'⟩ := either.mp ⟨c, compiled⟩
  exact ⟨c, c', compiled, compiled', same c c' compiled compiled'⟩

end Classifier

end BlockAngular
