import BlockAngular.Proofs.Rule.RoundTrip

/-! # Written patterns

A pattern is written as the name of a component, and behind it the names of its indices with
commas between them and square brackets around them, if it has any. Blanks can stand around each
name. What is written is read back unless it captures a name twice, and the first arrow behind it
ends it.
-/

namespace BlockAngular.Rule

open Token (Cuts CutsUnder)

/-- A letter, a digit or an underscore of ASCII. -/
def isPlainChar (c : Char) : Bool :=
  c.isAlphanum || c == '_'

/-- Whether a word is an identifier of ASCII characters. -/
def isPlainName (name : String) : Bool :=
  name.toList.all isPlainChar && name.toList.head?.any (!·.isDigit) &&
    !Token.keywords.contains name

section Plain

variable {c : Char} {name : String}

theorem toNat_of_plainChar (plain : isPlainChar c = true) :
    c.toNat = 95 ∨ (48 ≤ c.toNat ∧ c.toNat ≤ 57) ∨ (65 ≤ c.toNat ∧ c.toNat ≤ 90) ∨
      (97 ≤ c.toNat ∧ c.toNat ≤ 122) := by
  simp only [isPlainChar, Char.isAlphanum, Char.isAlpha, Char.isUpper, Char.isLower, Char.isDigit,
    Bool.or_eq_true, Bool.and_eq_true, decide_eq_true_eq, beq_iff_eq, ge_iff_le,
    UInt32.le_iff_toNat_le] at plain
  rcases plain with ((upper | lower) | digit) | rfl
  · exact .inr (.inr (.inl upper))
  · exact .inr (.inr (.inr lower))
  · exact .inr (.inl digit)
  · exact .inl rfl

theorem not_blank_of_plainChar (plain : isPlainChar c = true) : Text.isBlank c = false := by
  have code := toNat_of_plainChar plain
  simp only [Text.isBlank, Bool.or_eq_false_iff, Bool.and_eq_false_iff, decide_eq_false_iff_not,
    beq_eq_false_iff_ne]
  omega

/-- A plain name is read as itself. -/
theorem isOwnName_of_plain (plain : isPlainName name = true) : isOwnName name = true := by
  simp only [isPlainName, Bool.and_eq_true, Bool.not_eq_true', List.all_eq_true] at plain
  obtain ⟨⟨chars, start⟩, other⟩ := plain
  have ascii : ∀ c ∈ name.toList, c.toNat < 0x80 := by
    intro c hc
    have code := toNat_of_plainChar (chars c hc)
    omega
  have part : ∀ c ∈ name.toList, Text.isIdentifierPart c = true := by
    intro c hc
    rw [Text.isIdentifierPart, if_pos (ascii c hc)]
    exact chars c hc
  have identifier : Text.isIdentifier name.toList = true := by
    cases spelled : name.toList with
    | nil => simp [spelled] at start
    | cons c rest =>
        rw [spelled] at chars start ascii part
        have first := chars c List.mem_cons_self
        simp only [isPlainChar, Char.isAlphanum, Bool.or_eq_true] at first
        simp only [List.head?_cons, Option.any_some, Bool.not_eq_true'] at start
        simp only [Text.isIdentifier, Text.isIdentifierStart, ascii c List.mem_cons_self, if_true,
          Bool.and_eq_true, List.all_eq_true, Bool.or_eq_true]
        refine ⟨?_, fun d hd => part d (List.mem_cons_of_mem _ hd)⟩
        simpa [start] using first
  have normal : Text.normalForm name.toList = name.toList :=
    if_pos (List.all_eq_true.mpr fun c hc => decide_eq_true (ascii c hc))
  rw [isOwnName_iff, Token.ofWord?]
  simp only [String.ofList_toList, other, identifier, normal, Bool.false_eq_true, if_false, if_true]

end Plain

/-- A name with what stands around it. -/
structure Spaced where
  before : List Char
  name : String
  behind : List Char

def Spaced.text (s : Spaced) : List Char :=
  s.before ++ s.name.toList ++ s.behind

/-- A pattern as it is written. -/
structure Written where
  component : Spaced
  indices : List Spaced
  trailing : List Char

namespace Written

/-- The names of indices with commas between them. -/
def listText : List Spaced → List Char
  | [] => []
  | [s] => s.text
  | s :: rest => s.text ++ ',' :: listText rest

/-- The names of indices in brackets, if there are any. -/
def indexText (indices : List Spaced) : List Char :=
  if indices.isEmpty then [] else '[' :: listText indices ++ [']']

def text (w : Written) : String :=
  String.ofList (w.component.text ++ indexText w.indices ++ w.trailing)

/-- The pattern that is written. -/
def pattern (w : Written) : Pattern :=
  ⟨w.component.name, w.indices.map (·.name)⟩

/-- Only blanks stand around the names, which are plain. Lines can also end in the brackets, and
any white space can stand at both ends of the text. -/
structure IsPlain (w : Written) : Prop where
  names : ∀ s ∈ w.component :: w.indices, isPlainName s.name = true
  before : ∀ c ∈ w.component.before, Text.isBlank c = true
  behind : ∀ c ∈ w.component.behind, Token.isBlank c = true
  inside : ∀ s ∈ w.indices, ∀ c ∈ s.before ++ s.behind, Token.isBlank c = true ∨ c = '\n'
  trailing : ∀ c ∈ w.trailing, Text.isBlank c = true

open Printer (furtherTokens indexTokens)

/-- The names of indices as the index of a subscript. -/
def indexOf : List String → Expr
  | [name] => .name name
  | names => .tuple (names.map .name)

theorem spelled_indexOf {names : List String} (own : ∀ name ∈ names, isOwnName name = true) :
    (indexOf names).Spelled := by
  have each : ∀ e ∈ names.map Expr.name, e.Spelled := by
    simp only [List.mem_map]
    rintro _ ⟨name, listed, rfl⟩
    exact .name (own name listed)
  cases names with
  | nil => exact .tuple each
  | cons name names =>
      cases names with
      | nil => exact .name (own name List.mem_cons_self)
      | cons => exact .tuple each

theorem indexTokens_indexOf (name : String) (names : List String) :
    indexTokens (indexOf (name :: names)) = .name name :: furtherTokens (names.map .name) := by
  cases names with
  | nil => simp [indexOf, indexTokens, Printer.tokens, furtherTokens]
  | cons other names => simp [indexOf, indexTokens, Printer.tokens]

section Cut

variable {s : Spaced} {indices : List Spaced} {w : Written} {opened : List Char}

/-- A name ends where a comma, a bracket or a gap follows. -/
theorem ends_name {c : Char} (h : Token.isBlank c = true ∨ c = '\n' ∨ c = ',' ∨ c = '[' ∨ c = ']') :
    (!Token.isWordChar c && !Token.isQuote c) = true := by
  simp only [Token.isBlank, List.contains_iff_mem, List.mem_cons, List.not_mem_nil, or_false] at h
  rcases h with (rfl | rfl | rfl) | rfl | rfl | rfl | rfl <;> decide

theorem head?_append_all {p : Char → Prop} {gap rest : List Char} (all : ∀ c ∈ gap, p c)
    (next : ∀ c ∈ rest.head?, p c) : ∀ c ∈ (gap ++ rest).head?, p c := by
  cases gap with
  | nil => exact next
  | cons c gap => simpa using all c List.mem_cons_self

theorem cuts_spaced (own : isOwnName s.name = true)
    (gaps : ∀ c ∈ s.before ++ s.behind, Token.isBlank c = true ∨ c = '\n') :
    CutsUnder ('[' :: opened) (fun c => c == ',' || c == ']') 0 s.text [.name s.name] := by
  simp only [List.mem_append, or_imp, forall_and] at gaps
  have before : CutsUnder ('[' :: opened) (fun _ => true) 0 s.before [] := .gap gaps.1
  have behind : CutsUnder ('[' :: opened) (fun c => c == ',' || c == ']') 0 s.behind [] :=
    .gap gaps.2
  have name := (Cuts.name (isOwnName_iff.mp own)).under ('[' :: opened)
  refine (before.append name fun _ _ _ _ => rfl).append behind fun rest stopped => ?_
  refine head?_append_all (fun c hc => ends_name ?_) fun c hc => ends_name ?_
  · have separates := gaps.2 c hc
    tauto
  · have stop := stopped c hc
    simp only [Bool.or_eq_true, beq_iff_eq] at stop
    tauto

theorem cuts_list (own : ∀ i ∈ s :: indices, isOwnName i.name = true)
    (gaps : ∀ i ∈ s :: indices, ∀ c ∈ i.before ++ i.behind, Token.isBlank c = true ∨ c = '\n') :
    CutsUnder ('[' :: opened) (· == ']') 0 (listText (s :: indices))
      (.name s.name :: furtherTokens (indices.map (.name ·.name))) := by
  induction indices generalizing s with
  | nil =>
      have first : CutsUnder ('[' :: opened) (fun c => c == ',' || c == ']') 0 s.text
          [.name s.name] := cuts_spaced (own s List.mem_cons_self) (gaps s List.mem_cons_self)
      exact first.weaken (fun c stop => by simp [eq_of_beq stop]) (Nat.le_refl 0)
  | cons i indices ih =>
      obtain ⟨ownFirst, ownOthers⟩ := List.forall_mem_cons.mp own
      obtain ⟨gapsFirst, gapsOthers⟩ := List.forall_mem_cons.mp gaps
      have first : CutsUnder ('[' :: opened) (fun c => c == ',' || c == ']') 0 s.text
          [.name s.name] := cuts_spaced ownFirst gapsFirst
      have comma : CutsUnder ('[' :: opened) (fun _ => true) 0 [','] [.symbol ","] :=
        Cuts.comma.under _
      have others := comma.append (ih ownOthers gapsOthers) fun _ _ _ _ => rfl
      have both := first.append_cons others rfl
      simpa [listText, furtherTokens, Printer.tokens] using both

/-- What is left of a written pattern when it is trimmed. -/
def core (w : Written) : List Char :=
  if w.indices.isEmpty then w.component.name.toList
  else w.component.name.toList ++ w.component.behind ++ indexText w.indices

/-- The expression that a written pattern is read as. -/
def expr (w : Written) : Expr :=
  if w.indices.isEmpty then .name w.component.name
  else .subscript (.name w.component.name) (indexOf (w.indices.map (·.name)))

def tokens (w : Written) : List Token :=
  if w.indices.isEmpty then [.name w.component.name]
  else .name w.component.name :: .symbol "[" :: indexTokens (indexOf (w.indices.map (·.name))) ++
    [.symbol "]"]

theorem cuts_core (own : ∀ i ∈ w.component :: w.indices, isOwnName i.name = true)
    (behind : ∀ c ∈ w.component.behind, Token.isBlank c = true)
    (inside : ∀ i ∈ w.indices, ∀ c ∈ i.before ++ i.behind, Token.isBlank c = true ∨ c = '\n') :
    Cuts (fun d => !Token.isWordChar d && !Token.isQuote d) 1 w.core w.tokens := by
  obtain ⟨ownName, ownIndices⟩ := List.forall_mem_cons.mp own
  have name := Cuts.name (isOwnName_iff.mp ownName)
  unfold core tokens
  cases listed : w.indices with
  | nil => exact name.weaken (fun _ stop => stop) (Nat.zero_le 1)
  | cons i indices =>
      rw [listed] at ownIndices inside
      have list : Cuts (fun d => !Token.isWordChar d && !Token.isQuote d) (0 + 1)
          ('[' :: listText (i :: indices) ++ [']']) _ :=
        Cuts.bracketed (List.mem_cons_of_mem _ List.mem_cons_self)
          (fun _ => cuts_list ownIndices inside) rfl
      have gap : Cuts (fun _ => true) 0 w.component.behind [] := .blanks behind
      have rest := gap.append list fun _ _ _ _ => rfl
      have whole := name.append rest fun more _ => by
        rw [List.append_assoc]
        refine head?_append_all (fun c hc => ends_name (.inl (behind c hc))) fun c hc => ?_
        obtain rfl : '[' = c := by simpa using hc
        rfl
      simpa [indexText, indexTokens_indexOf, Function.comp_def] using whole

end Cut

section Trim

variable {p : Char → Prop} {gap before core after : List Char}

theorem dropWhile_blanks (blank : ∀ c ∈ gap, Text.isBlank c = true)
    (first : ∀ c ∈ core.head?, Text.isBlank c = false) :
    (gap ++ core).dropWhile Text.isBlank = core := by
  rw [List.dropWhile_append_of_pos blank]
  cases core with
  | nil => rfl
  | cons c core => simp [first c rfl]

theorem trimBlanks_around (some : core ≠ []) (before_blank : ∀ c ∈ before, Text.isBlank c = true)
    (after_blank : ∀ c ∈ after, Text.isBlank c = true)
    (first : ∀ c ∈ core.head?, Text.isBlank c = false)
    (last : ∀ c ∈ core.getLast?, Text.isBlank c = false) :
    Text.trimBlanks (before ++ core ++ after) = core := by
  have left : (before ++ (core ++ after)).dropWhile Text.isBlank = core ++ after :=
    dropWhile_blanks before_blank (by rwa [List.head?_append_of_ne_nil _ some])
  have right : (after.reverse ++ core.reverse).dropWhile Text.isBlank = core.reverse :=
    dropWhile_blanks (by simpa using after_blank) (by simpa using last)
  rw [Text.trimBlanks, List.append_assoc, left, List.reverse_append, right, List.reverse_reverse]

end Trim

section Read

variable {w : Written}

theorem forall_indexText {p : Char → Prop} {indices : List Spaced} (marks : p ',' ∧ p '[' ∧ p ']')
    (each : ∀ i ∈ indices, ∀ c ∈ i.text, p c) : ∀ c ∈ indexText indices, p c := by
  have list : ∀ c ∈ listText indices, p c := by
    induction indices with
    | nil => simp [listText]
    | cons i indices ih =>
        obtain ⟨first, others⟩ := List.forall_mem_cons.mp each
        cases indices with
        | nil => exact first
        | cons j indices =>
            simp only [listText, List.mem_append, List.mem_cons]
            rintro c (hc | rfl | hc)
            · exact first c hc
            · exact marks.1
            · exact ih others c hc
  intro c hc
  unfold indexText at hc
  split at hc
  · cases hc
  · simp only [List.cons_append, List.mem_cons, List.mem_append, List.not_mem_nil, or_false] at hc
    rcases hc with rfl | hc | rfl
    · exact marks.2.1
    · exact list c hc
    · exact marks.2.2

theorem isBlank_of_separates {c : Char} (h : Token.isBlank c = true ∨ c = '\n') :
    Text.isBlank c = true ∧ Printer.isKept c = true := by
  simp only [Token.isBlank, List.contains_iff_mem, List.mem_cons, List.not_mem_nil, or_false] at h
  rcases h with (rfl | rfl | rfl) | rfl <;> decide

namespace IsPlain

theorem own (plain : w.IsPlain) : ∀ i ∈ w.component :: w.indices, isOwnName i.name = true :=
  fun i hi => isOwnName_of_plain (plain.names i hi)

theorem kept_core (plain : w.IsPlain) : w.core.all Printer.isKept = true := by
  obtain ⟨name, names⟩ := List.forall_mem_cons.mp plain.own
  have kept (id : String) (own : isOwnName id = true) : ∀ c ∈ id.toList, Printer.isKept c = true :=
    List.all_eq_true.mp (Printer.kept_name own)
  have indices : ∀ c ∈ indexText w.indices, Printer.isKept c = true := by
    refine forall_indexText (by decide) fun i hi c hc => ?_
    simp only [Spaced.text, List.mem_append] at hc
    have inside := plain.inside i hi
    simp only [List.mem_append] at inside
    rcases hc with (hc | hc) | hc
    · exact (isBlank_of_separates (inside c (.inl hc))).2
    · exact kept _ (names i hi) c hc
    · exact (isBlank_of_separates (inside c (.inr hc))).2
  refine List.all_eq_true.mpr fun c hc => ?_
  unfold core at hc
  split at hc
  · exact kept _ name c hc
  · simp only [List.mem_append] at hc
    rcases hc with (hc | hc) | hc
    · exact kept _ name c hc
    · exact (isBlank_of_separates (.inl (plain.behind c hc))).2
    · exact indices c hc

theorem exists_start (plain : w.IsPlain) : ∃ c word, w.component.name.toList = c :: word ∧
    ∀ d ∈ c :: word, isPlainChar d = true := by
  have name := plain.names w.component List.mem_cons_self
  simp only [isPlainName, Bool.and_eq_true, List.all_eq_true] at name
  cases spelled : w.component.name.toList with
  | nil => simp [spelled] at name
  | cons c word =>
      rw [spelled] at name
      exact ⟨c, word, rfl, name.1.1⟩

theorem trimmed (plain : w.IsPlain) : Text.trimBlanks w.text.toList = w.core := by
  obtain ⟨c, word, spelled, chars⟩ := plain.exists_start
  have first : Text.isBlank c = false := not_blank_of_plainChar (chars c List.mem_cons_self)
  have behind : ∀ c ∈ w.component.behind, Text.isBlank c = true :=
    fun c hc => (isBlank_of_separates (.inl (plain.behind c hc))).1
  rw [text, String.toList_ofList]
  cases listed : w.indices with
  | nil =>
      have after : ∀ c ∈ w.component.behind ++ w.trailing, Text.isBlank c = true :=
        fun c hc => (List.mem_append.mp hc).elim (behind c) (plain.trailing c)
      have last : ∀ d ∈ (c :: word).getLast?, Text.isBlank d = false :=
        fun d hd => not_blank_of_plainChar (chars d (List.mem_of_getLast? hd))
      have trim := trimBlanks_around (by simp) plain.before after (by simpa using first) last
      simpa [core, Spaced.text, indexText, listed, spelled] using trim
  | cons i indices =>
      have closed : c :: word ++ w.component.behind ++ indexText (i :: indices) =
          (c :: word ++ w.component.behind ++ '[' :: listText (i :: indices)) ++ [']'] := by
        simp [indexText]
      have last : ∀ d ∈ (c :: word ++ w.component.behind ++ indexText (i :: indices)).getLast?,
          Text.isBlank d = false := by
        intro d hd
        rw [closed, List.getLast?_concat, Option.mem_some_iff] at hd
        subst hd
        rfl
      have trim := trimBlanks_around (by simp) plain.before plain.trailing (by simpa using first) last
      simpa [core, Spaced.text, listed, spelled] using trim

/-- What is written of a pattern holds no arrow. -/
theorem no_arrow (plain : w.IsPlain) : ∀ c ∈ w.text.toList, c ≠ '=' := by
  have blank : ∀ c, Text.isBlank c = true → c ≠ '=' := by
    rintro _ blank rfl
    revert blank
    decide
  have name (s : Spaced) (plain : isPlainName s.name = true) : ∀ c ∈ s.name.toList, c ≠ '=' := by
    simp only [isPlainName, Bool.and_eq_true, List.all_eq_true] at plain
    rintro _ hc rfl
    exact absurd (plain.1.1 _ hc) (by decide)
  have indices : ∀ c ∈ indexText w.indices, c ≠ '=' := by
    refine forall_indexText (by decide) fun i hi c hc => ?_
    have inside := plain.inside i hi
    simp only [List.mem_append] at inside
    simp only [Spaced.text, List.mem_append] at hc
    rcases hc with (hc | hc) | hc
    · exact blank c (isBlank_of_separates (inside c (.inl hc))).1
    · exact name i (plain.names i (List.mem_cons_of_mem _ hi)) c hc
    · exact blank c (isBlank_of_separates (inside c (.inr hc))).1
  simp only [text, String.toList_ofList, Spaced.text, List.mem_append]
  rintro c ((((hc | hc) | hc) | hc) | hc)
  · exact blank c (plain.before c hc)
  · exact name _ (plain.names _ List.mem_cons_self) c hc
  · exact blank c (isBlank_of_separates (.inl (plain.behind c hc))).1
  · exact indices c hc
  · exact blank c (plain.trailing c hc)

theorem ofText?_core (plain : w.IsPlain) : Expr.ofText? w.core = some w.expr := by
  obtain ⟨c, word, spelled, chars⟩ := plain.exists_start
  have start : ∃ more, w.core = c :: more := by
    unfold core
    split
    · exact ⟨word, spelled⟩
    · exact ⟨_, by rw [spelled]; rfl⟩
  obtain ⟨more, shape⟩ := start
  have cut := cuts_core plain.own plain.behind plain.inside
  have kept := plain.kept_core
  have ordinary : Token.isOrdinary c = true := by
    have code := toNat_of_plainChar (chars c List.mem_cons_self)
    rw [Token.isOrdinary_iff]
    refine ⟨?_, ?_, ?_, ?_, ?_, ?_⟩ <;> rintro rfl <;> revert code <;> decide
  rw [shape] at cut kept
  obtain ⟨cutWhole, count⟩ := cut.ofText? ordinary kept (by decide)
  rw [shape, Expr.ofText?, cutWhole, Option.bind_eq_bind, Option.bind_some]
  have own := (List.forall_mem_cons.mp plain.own).2
  unfold tokens at count ⊢
  unfold expr
  split
  · exact Parser.whole?_name (by omega)
  · rename_i several
    rw [if_neg several] at count
    have names : ∀ name ∈ w.indices.map (·.name), isOwnName name = true := by
      simpa using own
    refine Parser.whole?_subscript (Parser.readsIndex_tokens (spelled_indexOf names)) ?_
    simp only [List.length_cons, List.length_append, List.length_nil] at count ⊢
    omega

theorem readTrimmed_text (plain : w.IsPlain) (unreadable : String → Error) :
    readTrimmed w.text unreadable = .ok (String.ofList w.core, w.expr) := by
  simp only [readTrimmed, plain.trimmed, Destination.nonzero_of_kept plain.kept_core,
    plain.ofText?_core, Bool.false_eq_true, if_false]

end IsPlain

end Read

end Written

namespace Pattern

/-- The names among those of indices that are captured. -/
def captured (indices : List String) : List String :=
  indices.filter (· != wildcard)

variable {seen names : List String}

theorem readIndices_of_nodup (shown : String) (once : (captured (seen ++ names)).Nodup) :
    readIndices shown seen (names.map .name) = .ok (seen ++ names) := by
  induction names generalizing seen with
  | nil => simp [readIndices]
  | cons name names ih =>
      have new : ¬ (name != wildcard && seen.contains name) = true := by
        intro repeated
        simp only [Bool.and_eq_true, List.contains_iff_mem] at repeated
        rw [captured, List.filter_append] at once
        exact (List.nodup_append.mp once).2.2 name (List.mem_filter.mpr repeated.symm) name
          (List.mem_filter.mpr ⟨List.mem_cons_self, repeated.1⟩) rfl
      rw [List.append_cons] at once ⊢
      rw [List.map_cons, readIndices, if_neg new]
      exact ih once

theorem nodup_append_of_new {name : String} (once : (captured seen).Nodup)
    (new : ¬ (name != wildcard && seen.contains name) = true) :
    (captured (seen ++ [name])).Nodup := by
  rw [captured, List.filter_append]
  refine List.nodup_append.mpr ⟨once, (List.nodup_singleton name).filter _, ?_⟩
  rintro other there _ last rfl
  obtain ⟨there, own⟩ := List.mem_filter.mp there
  obtain rfl := List.mem_singleton.mp (List.mem_filter.mp last).1
  exact new (by simp [there, bne_iff_ne.mp own])

/-- The name is captured before, and it is the first one of which this holds. -/
structure IsRepeated (indices : List String) (name : String) : Prop where
  captured_twice : ∃ earlier later, indices = earlier ++ name :: later ∧ name ∈ earlier ∧
    (captured earlier).Nodup
  not_wildcard : name ≠ wildcard

theorem readIndices_of_repeated (shown : String) (once : (captured seen).Nodup)
    (again : ¬ (captured (seen ++ names)).Nodup) : ∃ name, IsRepeated (seen ++ names) name ∧
      readIndices shown seen (names.map .name) =
        .error (.malformedPattern (.capturedTwice name shown)) := by
  induction names generalizing seen with
  | nil => simp [once] at again
  | cons name names ih =>
      by_cases repeated : (name != wildcard && seen.contains name) = true
      · have both := repeated
        simp only [Bool.and_eq_true, List.contains_iff_mem, bne_iff_ne] at both
        refine ⟨name, ⟨⟨seen, names, rfl, both.2, once⟩, both.1⟩, ?_⟩
        rw [List.map_cons, readIndices, if_pos repeated]
      · have still := nodup_append_of_new once repeated
        rw [List.append_cons] at again ⊢
        rw [List.map_cons, readIndices, if_neg repeated]
        exact ih still again

end Pattern

/-- A text without an equals sign before an arrow is cut off there. -/
theorem splitArrow?_append {left : List Char} (none : ∀ c ∈ left, c ≠ '=') (right : List Char) :
    splitArrow? (left ++ '=' :: '>' :: right) = some (left, right) := by
  induction left with
  | nil => simp [splitArrow?]
  | cons c left ih =>
      obtain ⟨first, others⟩ := List.forall_mem_cons.mp none
      have more := ih others
      cases left <;> simp_all [splitArrow?]

namespace Written

open Pattern (captured IsRepeated)

variable {w : Written}

theorem positions_indexOf (names : List String) :
    Pattern.positions (indexOf names) = names.map .name := by
  cases names with
  | nil => rfl
  | cons name names => cases names <;> rfl

theorem IsPlain.ofText (plain : w.IsPlain) : Pattern.ofText w.text =
    (Pattern.readIndices (String.ofList w.core) [] (w.pattern.indices.map .name)).map
      (Pattern.mk w.pattern.name) := by
  rw [Pattern.ofText, plain.readTrimmed_text]
  unfold expr
  split
  · rename_i none
    rw [pattern, List.isEmpty_iff.mp none]
    rfl
  · simp only [bind, Except.bind, positions_indexOf]
    rfl

theorem IsPlain.splitArrow?_text (plain : w.IsPlain) (right : String) :
    splitArrow? (w.text ++ "=>" ++ right).toList = some (w.text.toList, right.toList) := by
  have arrow : (w.text ++ "=>" ++ right).toList = w.text.toList ++ '=' :: '>' :: right.toList := by
    simp [String.toList_append]
  rw [arrow, splitArrow?_append plain.no_arrow]

/-- The text behind the arrow is the destination, whatever it is. -/
theorem IsPlain.ofText_arrow (plain : w.IsPlain) (right : String) (provided : Scope) :
    Rule.ofText (w.text ++ "=>" ++ right) provided = (do
      let pattern ← Pattern.ofText w.text
      let destination ← Destination.ofText right pattern.indices provided
      return ⟨pattern.name, pattern.indices, destination⟩) := by
  rw [Rule.ofText, plain.splitArrow?_text]
  simp only [String.ofList_toList]

/-- What is written is read back unless it captures a name twice; then the first such name is
reported. The text behind the arrow is the destination. -/
theorem reads_what_is_written (w : Written) (plain : w.IsPlain) :
    ((captured w.pattern.indices).Nodup → Pattern.ofText w.text = .ok w.pattern ∧
        ∀ right provided, Rule.ofText (w.text ++ "=>" ++ right) provided =
          (Destination.ofText right w.pattern.indices provided).map
            (Rule.mk w.pattern.name w.pattern.indices)) ∧
      (¬ (captured w.pattern.indices).Nodup → ∃ name, IsRepeated w.pattern.indices name ∧
        Pattern.ofText w.text = .error (.malformedPattern (.capturedTwice name
          (String.ofList (Text.trimBlanks w.text.toList)))) ∧
        ∀ right provided, Rule.ofText (w.text ++ "=>" ++ right) provided =
          .error (.malformedPattern (.capturedTwice name
            (String.ofList (Text.trimBlanks w.text.toList))))) := by
  have read := plain.ofText
  constructor
  · intro once
    have kept : Pattern.readIndices (String.ofList w.core) [] (w.pattern.indices.map .name) =
        .ok w.pattern.indices := Pattern.readIndices_of_nodup _ once
    rw [kept] at read
    refine ⟨read, fun right provided => ?_⟩
    rw [plain.ofText_arrow, read]
    rfl
  · intro again
    have none : (captured []).Nodup := List.nodup_nil
    have twice : ∃ name, IsRepeated w.pattern.indices name ∧
        Pattern.readIndices (String.ofList w.core) [] (w.pattern.indices.map .name) =
          .error (.malformedPattern (.capturedTwice name (String.ofList w.core))) :=
      Pattern.readIndices_of_repeated _ none again
    obtain ⟨name, repeated, failed⟩ := twice
    rw [failed] at read
    refine ⟨name, repeated, ?_, fun right provided => ?_⟩
    · rw [plain.trimmed]
      exact read
    · rw [plain.ofText_arrow, plain.trimmed, read]
      rfl

/-- A pattern with blanks everywhere, written over three lines. -/
def spacedOut (second : String) : Written where
  component := ⟨[' ', '\t'], "x", [' ']⟩
  indices := [⟨[], "m", [' ']⟩, ⟨['\n', '\t'], second, []⟩, ⟨[' '], "_", ['\x0c', ' ']⟩]
  trailing := ['\n', ' ']

theorem spacedOut_isPlain {second : String} (plain : isPlainName second = true) :
    (spacedOut second).IsPlain where
  names := by
    simp only [spacedOut, List.forall_mem_cons, plain]
    decide
  before := by simp [spacedOut, Text.isBlank]
  behind := by simp [spacedOut, Token.isBlank]
  inside := by simp [spacedOut, Token.isBlank]
  trailing := by simp [spacedOut, Text.isBlank]

/-- With a second wildcard it is read back, and with a second `m` it is refused. -/
theorem spacedOut_read : (spacedOut "_").IsPlain ∧ (spacedOut "m").IsPlain ∧
    Pattern.ofText (spacedOut "_").text = .ok ⟨"x", ["m", "_", "_"]⟩ ∧
      Rule.ofText ((spacedOut "_").text ++ "=>" ++ "subproblem('=>')") [] =
          (Destination.ofText "subproblem('=>')" ["m", "_", "_"] []).map
            (Rule.mk "x" ["m", "_", "_"]) ∧
        ((Destination.ofText "subproblem('=>')" ["m", "_", "_"] []).toOption.bind (·.source?)) =
          some "'=>'" ∧
      ∃ e, Pattern.ofText (spacedOut "m").text = .error (.malformedPattern e) := by
  have wild : (spacedOut "_").IsPlain := spacedOut_isPlain (by decide)
  have twice : (spacedOut "m").IsPlain := spacedOut_isPlain (by decide)
  have ⟨pattern, rule⟩ := (reads_what_is_written (spacedOut "_") wild).1 (by decide)
  obtain ⟨name, -, refused, -⟩ := (reads_what_is_written (spacedOut "m") twice).2 (by decide)
  exact ⟨wild, twice, pattern, rule "subproblem('=>')" [], by decide +kernel, _, refused⟩

end Written

end BlockAngular.Rule
