import BlockAngular.Proofs.Rule.Checking
import Mathlib.Data.List.Nodup

/-! # Compiled rules run

Rules that compile have names of their own and ids that the checker has accepted over the
captured names and those that the caller provides. The scope of a call has all of these names,
so that a call can only fail on the data that it is given.
-/

namespace BlockAngular

namespace Rule

namespace Destination

/-- The names that an id may use. -/
def isKnown (captures : List String) (provided : Scope) (name : String) : Bool :=
  (name != wildcard && captures.contains name) || provided.has name

/-- A text that is read as a call of `subproblem` with an id. -/
def Reads (text : String) (id : Expr) : Prop :=
  ∃ shown, readTrimmed text (fun shown => .malformedAssignment (.unreadable shown)) =
    .ok (shown, .call (.name "subproblem") [id] [])

variable {text : String} {captures : List String} {provided : Scope}

theorem ofText_of_reads {id : Expr} (reads : Reads text id) {d : Destination} :
    ofText text captures provided = .ok d ↔ d = .subproblem id ∧
      id.all (Expr.isAllowed (isKnown captures provided)) = true ∧
        id.all Expr.isWritableHere = true := by
  obtain ⟨shown, read⟩ := reads
  have checked : id.check (isKnown captures provided) shown = .ok () ↔
      id.all (Expr.isAllowed (isKnown captures provided)) = true := Expr.check_ok id
  have other : ("subproblem" == "master") = false := by decide
  simp only [ofText, read, Success.bind_ok, Except.ok.injEq, exists_eq_left', List.isEmpty_nil,
    Bool.not_true, Bool.false_eq_true, if_false, other, BEq.rfl, if_true]
  constructor
  · rintro ⟨_, accepted, written, hw, equal⟩
    exact ⟨(Success.pure_ok.mp equal).symm, checked.mp accepted,
      (Expr.written_ok.mp (Success.mapError_ok.mp hw)).1⟩
  · rintro ⟨rfl, allowed, writable⟩
    exact ⟨(), checked.mpr allowed, _,
      Success.mapError_ok.mpr (Expr.written_ok.mpr ⟨writable, rfl⟩), rfl⟩

/-- What keeps an id of allowed nodes from being accepted. -/
theorem ofText_unwritten {id : Expr} (reads : Reads text id)
    (allowed : id.all (Expr.isAllowed (isKnown captures provided)) = true)
    (unwritable : id.all Expr.isWritableHere = false) :
    ofText text captures provided = .error (.fault .badValue) := by
  obtain ⟨shown, read⟩ := reads
  have checked : id.check (fun name => (name != wildcard && captures.contains name) ||
      provided.has name) shown = .ok () := (Expr.check_ok id).mpr allowed
  have unwritten : id.written = .error .badValue := by
    rw [Expr.written, unwritable]
    rfl
  simp [ofText, read, checked, unwritten, bind, Except.bind, Except.mapError, -List.contains_eq_mem]

/-- Only a call of `subproblem` is read as a destination in a subproblem. -/
theorem reads_of_ofText {id : Expr} (h : ofText text captures provided = .ok (.subproblem id)) :
    Reads text id := by
  simp only [ofText, Success.bind_ok] at h
  obtain ⟨⟨shown, e⟩, read, h⟩ := h
  split at h
  · rename_i function arguments keywords called
    cases keywords with
    | cons => simp at h
    | nil =>
    simp only [List.isEmpty_nil, Bool.not_true, Bool.false_eq_true, if_false] at h
    split at h
    · split at h
      · cases Success.pure_ok.mp h
      · simp at h
    · split at h
      · rename_i named
        split at h
        · simp only [Success.bind_ok, Success.pure_ok] at h
          obtain ⟨-, -, -, -, equal⟩ := h
          cases equal
          obtain rfl := eq_of_beq named
          exact ⟨shown, called ▸ read⟩
        · simp at h
      · simp at h
  · simp at h

end Destination

/-- The pattern and the destination of a rule come from the same text. -/
theorem ofText_ok {text : String} {provided : Scope} {rule : Rule}
    (h : ofText text provided = .ok rule) : ∃ right,
      Destination.ofText right rule.indices provided = .ok rule.destination := by
  unfold ofText at h
  split at h
  · cases h
  · simp only [Success.bind_ok, Success.pure_ok] at h
    obtain ⟨pattern, -, destination, read, rfl⟩ := h
    exact ⟨_, read⟩

/-- A captured name is in the scope of a call that matches the rule. -/
theorem has_captures {rule : Rule} {key : Key} (name : String) (provided : Scope)
    (matched : rule.matchesKey key = true)
    (known : Destination.isKnown rule.indices provided name = true) :
    Scope.has (rule.captures key.index ++ provided) name = true := by
  simp only [Destination.isKnown, Bool.or_eq_true, Bool.and_eq_true, List.contains_iff_mem,
    bne_iff_ne] at known
  simp only [Scope.has, List.any_append, Bool.or_eq_true]
  obtain ⟨named, listed⟩ | given := known
  · left
    have sizes : rule.indices.length = key.index.length := by
      simp only [matchesKey, arity, Bool.and_eq_true, beq_iff_eq] at matched
      exact matched.2
    obtain ⟨position, bound, rfl⟩ := List.getElem_of_mem listed
    refine List.any_eq_true.mpr ⟨(rule.indices[position], key.index[position]), ?_, by simp⟩
    refine List.mem_filter.mpr ⟨?_, by simpa using named⟩
    exact List.mem_iff_getElem.mpr ⟨position, by simp [← sizes, bound], by simp⟩
  · exact .inr given

/-- Deciding about a key: the rule sends it to the master, or every node of its id can be
evaluated in the scope of the call and evaluating it gives an id or fails on the data. -/
def Decides (rule : Rule) (classifier : Classifier) (key : Key) : Prop :=
  match rule.destination with
  | .master => classifier.classify key = .ok (.block .master)
  | .subproblem id =>
    id.all (Expr.isReady (rule.captures key.index ++ classifier.provided)) = true ∧
      ((∃ v, classifier.classify key = .ok (.block (.subproblem v))) ∨
        ∃ fault, id.FailsOnData (rule.captures key.index ++ classifier.provided) fault ∧
          classifier.classify key = .error (.fault fault))

end Rule

namespace Classifier

variable {provided : Rule.Scope}

theorem exists_line {lines : List String} {rules : List Rule}
    (h : readAll provided lines = .ok rules) {rule : Rule} (listed : rule ∈ rules) :
    ∃ line ∈ lines, Rule.ofText line provided = .ok rule := by
  induction lines generalizing rules with
  | nil =>
      cases h
      cases listed
  | cons line lines ih =>
      simp only [readAll, Success.bind_ok, Success.pure_ok] at h
      obtain ⟨first, read, rest, hrest, rfl⟩ := h
      rcases List.mem_cons.mp listed with rfl | later
      · exact ⟨line, List.mem_cons_self, read⟩
      · obtain ⟨line', hline, read'⟩ := ih hrest later
        exact ⟨line', List.mem_cons_of_mem _ hline, read'⟩

/-- What tells rules apart. -/
def signature (rule : Rule) : String × Nat :=
  (rule.name, rule.arity)

/-- Rules are added in their order, and only with signatures of their own. -/
theorem addAll_ok {first rest all : List Rule} (h : addAll first rest = .ok all)
    (apart : (first.map signature).Nodup) : all = first ++ rest ∧ (all.map signature).Nodup := by
  induction rest generalizing first with
  | nil =>
      cases h
      exact ⟨(List.append_nil _).symm, apart⟩
  | cons rule rest ih =>
      simp only [addAll, Success.ite_error_ok] at h
      obtain ⟨new, h⟩ := h
      have apart' : ((first ++ [rule]).map signature).Nodup := by
        rw [List.map_append, List.map_singleton, ← List.concat_eq_append]
        refine apart.concat fun listed => new ?_
        obtain ⟨other, hother, same⟩ := List.mem_map.mp listed
        refine List.any_eq_true.mpr ⟨other, hother, ?_⟩
        simpa [signature] using same
      obtain ⟨rfl, nodup⟩ := ih h apart'
      exact ⟨by simp, nodup⟩

theorem ofLines_ok {lines : List String} {classifier : Classifier}
    (h : ofLines lines provided = .ok classifier) :
    readAll provided (ruleLines lines) = .ok classifier.rules ∧
      classifier.provided = provided ∧ (classifier.rules.map signature).Nodup := by
  simp only [ofLines, Success.bind_ok] at h
  obtain ⟨rules, read, h⟩ := h
  split at h
  · simp at h
  · simp only [Success.pure_ok, Success.bind_ok] at h
    obtain ⟨all, added, rfl⟩ := h
    obtain ⟨rfl, nodup⟩ := addAll_ok added List.nodup_nil
    exact ⟨read, rfl, nodup⟩

/-- At most one rule decides about a key. -/
theorem find?_of_matches {rules : List Rule} (apart : (rules.map signature).Nodup) {rule : Rule}
    (listed : rule ∈ rules) {key : Key} (matched : rule.matchesKey key = true) :
    rules.find? (·.matchesKey key) = some rule := by
  cases found : rules.find? (·.matchesKey key) with
  | none => exact absurd matched (List.find?_eq_none.mp found rule listed)
  | some other =>
      have matched' := List.find?_some found
      simp only [Rule.matchesKey, Bool.and_eq_true, beq_iff_eq] at matched matched'
      have same : signature other = signature rule :=
        Prod.ext (matched'.1.trans matched.1.symm) (matched'.2.trans matched.2.symm)
      rw [List.inj_on_of_nodup_map apart (List.mem_of_find?_eq_some found) listed same]

/-- A rule that compiles decides about every key that it matches. -/
theorem decides_of_ofLines {lines : List String} {classifier : Classifier}
    (h : ofLines lines provided = .ok classifier) {rule : Rule} (listed : rule ∈ classifier.rules)
    {key : Key} (matched : rule.matchesKey key = true) : rule.Decides classifier key := by
  obtain ⟨read, rfl, apart⟩ := ofLines_ok h
  have answer : classifier.classify key =
      (rule.block classifier.provided key.index).map .block := by
    rw [classify, block, find?_of_matches apart listed matched]
  obtain ⟨line, -, compiled⟩ := exists_line read listed
  obtain ⟨right, checked⟩ := Rule.ofText_ok compiled
  unfold Rule.Decides
  unfold Rule.block at answer
  split <;> rename_i sent <;> simp only [sent] at answer checked
  · exact answer
  · rename_i id
    have reads := Rule.Destination.reads_of_ofText checked
    have accepted := Rule.Expr.accepted_of_all id
      ((Rule.Destination.ofText_of_reads reads).mp checked).2.1
    have names := fun name => Rule.has_captures name classifier.provided matched
    refine ⟨accepted.all_isReady names, ?_⟩
    obtain ⟨v, hv⟩ | ⟨fault, failed, hv⟩ := accepted.runsOnData names
    · exact .inl ⟨v, by rw [answer, hv]; rfl⟩
    · exact .inr ⟨fault, failed, by rw [answer, hv]; rfl⟩

end Classifier

end BlockAngular
