import BlockAngular.Proofs.Rule.Constants
import BlockAngular.Rule.Printer

/-! # The tokens of a printed id

The text of an accepted id is cut into tokens that follow the structure of the id just as the text
does. Only a point would be taken into an integer, which is why the printer keeps a blank there.
-/

namespace BlockAngular.Rule

open Token (Cuts isWordChar isQuote)

/-- Whether a word is read as the identifier that it is. -/
def isOwnName (id : String) : Bool :=
  match Token.ofWord? id.toList with
  | some (.name read) => read == id
  | _ => false

theorem isOwnName_iff {id : String} :
    isOwnName id = true ↔ Token.ofWord? id.toList = some (.name id) := by
  unfold isOwnName
  split <;> rename_i read <;> simp_all

namespace Expr

/-- Whether the names at a node are read as themselves. -/
def hasOwnNames : Expr → Bool
  | .name id | .attribute _ id => isOwnName id
  | _ => true

/-- Whether a constant is an integer, a text, a truth value or `None`. -/
def isPlain : Expr → Bool
  | .constant value _ =>
    match value with
    | .null | .bool _ | .int _ | .str _ => true
    | _ => false
  | _ => true

/-- Whether a constant is one that can be read: signs are operators and only texts carry marks. -/
def isRead : Expr → Bool
  | .constant value marked =>
    match value with
    | .int n => 0 ≤ n && !marked
    | .str _ => true
    | _ => !marked
  | _ => true

/-- An id whose text can be read back, by what it is made of. -/
inductive Spelled : Expr → Prop where
  | null : Spelled (.constant .null false)
  | truth (b : Bool) : Spelled (.constant (.bool b) false)
  | integer {n : Nat} : n < Value.tooLong → Spelled (.constant (.int n) false)
  | text (s : String) (marked : Bool) : Spelled (.constant (.str s) marked)
  | name {id : String} : isOwnName id = true → Spelled (.name id)
  | tuple {items : List Expr} : (∀ e ∈ items, Spelled e) → Spelled (.tuple items)
  | subscript {base index : Expr} :
      Spelled base → Spelled index → Spelled (.subscript base index)
  | member {base : Expr} {part : String} :
      isOwnName part = true → Spelled base → Spelled (.attribute base part)
  | binary {op : BinaryOp} {left right : Expr} : op.isArithmetic = true →
      Spelled left → Spelled right → Spelled (.binary op left right)
  | unary {op : UnaryOp} {operand : Expr} :
      op.isSign = true → Spelled operand → Spelled (.unary op operand)

theorem spelled_constant {value : Value} {marked : Bool}
    (plain : isPlain (.constant value marked) = true)
    (read : isRead (.constant value marked) = true) (writable : value.isWritable = true) :
    Spelled (.constant value marked) := by
  cases value with
  | null =>
      obtain rfl : marked = false := by simpa [isRead] using read
      exact .null
  | bool b =>
      obtain rfl : marked = false := by simpa [isRead] using read
      exact .truth b
  | int n =>
      simp only [isRead, Bool.and_eq_true, decide_eq_true_eq, Bool.not_eq_true'] at read
      obtain ⟨positive, rfl⟩ := read
      obtain ⟨n, rfl⟩ := Int.eq_ofNat_of_zero_le positive
      exact .integer (by simpa [Value.isWritable] using writable)
  | str s => exact .text s marked
  | _ => cases plain

theorem Accepted.spelled {known : String → Bool} {e : Expr} (accepted : e.Accepted known)
    (names : e.all hasOwnNames = true) (plain : e.all isPlain = true)
    (read : e.all isRead = true) (writable : e.all isWritableHere = true) : e.Spelled := by
  induction accepted with
  | constant value =>
      simp only [all, Bool.and_true] at plain read writable
      exact spelled_constant plain read writable
  | name _ => exact .name (by simpa [all, hasOwnNames] using names)
  | tuple _ ih =>
      simp only [all, Bool.and_eq_true, allItems_iff] at names plain read writable
      exact .tuple fun e he =>
        ih e he (names.2 e he) (plain.2 e he) (read.2 e he) (writable.2 e he)
  | subscript _ _ ihBase ihIndex =>
      simp only [all, Bool.and_eq_true] at names plain read writable
      exact .subscript (ihBase names.2.1 plain.2.1 read.2.1 writable.2.1)
        (ihIndex names.2.2 plain.2.2 read.2.2 writable.2.2)
  | member _ _ ih =>
      simp only [all, Bool.and_eq_true] at names plain read writable
      exact .member names.1 (ih names.2 plain.2 read.2 writable.2)
  | binary arithmetic _ _ ihLeft ihRight =>
      simp only [all, Bool.and_eq_true] at names plain read writable
      exact .binary arithmetic (ihLeft names.2.1 plain.2.1 read.2.1 writable.2.1)
        (ihRight names.2.2 plain.2.2 read.2.2 writable.2.2)
  | unary signed _ ih =>
      simp only [all, Bool.and_eq_true] at names plain read writable
      exact .unary signed (ih names.2 plain.2 read.2 writable.2)

/-- Induction in which a tuple in a subscript is taken apart as well. -/
@[elab_as_elim]
theorem Spelled.parts {motive : (e : Expr) → e.Spelled → Prop}
    (constant : ∀ {value marked} (h : Spelled (.constant value marked)), motive _ h)
    (name : ∀ {id} (own : isOwnName id = true), motive _ (.name own))
    (tuple : ∀ {items} (h : ∀ e ∈ items, Spelled e), (∀ e he, motive e (h e he)) →
      motive _ (.tuple h))
    (subscript : ∀ {base index} (hbase : Spelled base) (hindex : Spelled index),
      motive base hbase → motive index hindex →
        (∀ list, index = .tuple list → ∀ e ∈ list, ∃ h : Spelled e, motive e h) →
          motive _ (.subscript hbase hindex))
    (member : ∀ {base part} (own : isOwnName part = true) (h : Spelled base), motive base h →
      motive _ (.member own h))
    (binary : ∀ {op left right} (arithmetic : BinaryOp.isArithmetic op = true)
      (hleft : Spelled left) (hright : Spelled right), motive left hleft → motive right hright →
        motive _ (.binary arithmetic hleft hright))
    (unary : ∀ {op operand} (signed : UnaryOp.isSign op = true) (h : Spelled operand),
      motive operand h → motive _ (.unary signed h))
    {e : Expr} (spelled : e.Spelled) : motive e spelled := by
  have both : motive e spelled ∧
      ∀ list, e = .tuple list → ∀ e' ∈ list, ∃ h : Spelled e', motive e' h := by
    induction spelled with
    | null => exact ⟨constant .null, nofun⟩
    | truth b => exact ⟨constant (.truth b), nofun⟩
    | integer short => exact ⟨constant (.integer short), nofun⟩
    | text s marked => exact ⟨constant (.text s marked), nofun⟩
    | name own => exact ⟨name own, nofun⟩
    | tuple h ih =>
        refine ⟨tuple h fun e he => (ih e he).1, fun list same e he => ?_⟩
        obtain rfl := Expr.tuple.inj same
        exact ⟨h e he, (ih e he).1⟩
    | subscript hbase hindex ihBase ihIndex =>
        exact ⟨subscript hbase hindex ihBase.1 ihIndex.1 ihIndex.2, nofun⟩
    | member own h ih => exact ⟨member own h ih.1, nofun⟩
    | binary arithmetic hleft hright ihLeft ihRight =>
        exact ⟨binary arithmetic hleft hright ihLeft.1 ihRight.1, nofun⟩
    | unary signed h ih => exact ⟨unary signed h ih.1, nofun⟩
  exact both.1

end Expr

namespace Printer

/-- The levels of the operands of an operator. -/
def leftLevel (op : BinaryOp) : Nat :=
  if op = .pow then tighter (binaryLevel op) else binaryLevel op

def rightLevel (op : BinaryOp) : Nat :=
  if op = .pow then binaryLevel op else tighter (binaryLevel op)

theorem text_binary {plainly : Bool} {asked : Nat} {op : BinaryOp} {left right : Expr} :
    text plainly asked (.binary op left right) =
      bracketed asked (binaryLevel op) (text plainly (leftLevel op) left ++
        ' ' :: op.symbol.toList ++ ' ' :: text plainly (rightLevel op) right) := by
  by_cases power : op = .pow <;> simp [text, leftLevel, rightLevel, power]

/-- The tokens of a constant. -/
def constantTokens (value : Value) (marked : Bool) : List Token :=
  match value with
  | .null => [.keyword "None"]
  | .bool true => [.keyword "True"]
  | .bool false => [.keyword "False"]
  | .str s =>
    [.literal
      { isBytes := false
        isRaw := false
        isTemplate := false
        isMarked := marked
        body := s.toList.flatMap (Text.quotedChar (Text.quoteFor s.toList)) }]
  | v => [.number v]

/-- Brackets around tokens where a tighter level is asked for. -/
def bracketedTokens (asked own : Nat) (tokens : List Token) : List Token :=
  if own < asked then .symbol "(" :: tokens ++ [.symbol ")"] else tokens

mutual

/-- The tokens of an id where a level is asked for. -/
def tokens (asked : Nat) : Expr → List Token
  | .constant value marked => constantTokens value marked
  | .name id => [.name id]
  | .tuple [] => [.symbol "(", .symbol ")"]
  | .tuple (e :: es) =>
    bracketedTokens asked tupleLevel
      (tokens testLevel e ++ if es.isEmpty then [.symbol ","] else furtherTokens es)
  | .binary op left right =>
    bracketedTokens asked (binaryLevel op)
      (tokens (leftLevel op) left ++ .symbol op.symbol :: tokens (rightLevel op) right)
  | .unary op operand =>
    bracketedTokens asked (unaryLevel op)
      (.symbol op.symbol :: tokens (unaryLevel op) operand)
  | .attribute base part => tokens atomLevel base ++ [.symbol ".", .name part]
  | .subscript base (.tuple (e :: es)) =>
    tokens atomLevel base ++ .symbol "[" ::
      (tokens testLevel e ++ if es.isEmpty then [.symbol ","] else furtherTokens es) ++
        [.symbol "]"]
  | .subscript base index =>
    tokens atomLevel base ++ .symbol "[" :: tokens testLevel index ++ [.symbol "]"]
  | _ => []

/-- The tokens of further items, each behind a comma. -/
def furtherTokens : List Expr → List Token
  | [] => []
  | e :: rest => .symbol "," :: tokens testLevel e ++ furtherTokens rest

end

/-- The brackets around a text that has so many of them one in another. -/
def bracketedNesting (asked own nesting : Nat) : Nat :=
  if own < asked then nesting + 1 else nesting

mutual

/-- How many brackets of the text of an id stand one in another. -/
def nesting (asked : Nat) : Expr → Nat
  | .tuple [] => 1
  | .tuple (e :: es) =>
    bracketedNesting asked tupleLevel (max (nesting testLevel e) (furtherNesting es))
  | .binary op left right =>
    bracketedNesting asked (binaryLevel op)
      (max (nesting (leftLevel op) left) (nesting (rightLevel op) right))
  | .unary op operand => bracketedNesting asked (unaryLevel op) (nesting (unaryLevel op) operand)
  | .attribute base _ => nesting atomLevel base
  | .subscript base (.tuple (e :: es)) =>
    max (nesting atomLevel base) (max (nesting testLevel e) (furtherNesting es) + 1)
  | .subscript base index => max (nesting atomLevel base) (nesting testLevel index + 1)
  | _ => 0

/-- The same for items in a row. -/
def furtherNesting : List Expr → Nat
  | [] => 0
  | e :: rest => max (nesting testLevel e) (furtherNesting rest)

end

/-- The text, the tokens and the brackets of what stands in a subscript, where a tuple needs no
brackets of its own unless it is empty. -/
def indexText : Expr → List Char
  | .tuple (e :: es) => items (text false testLevel e :: texts false es)
  | index => text false testLevel index

def indexTokens : Expr → List Token
  | .tuple (e :: es) =>
    tokens testLevel e ++ if es.isEmpty then [.symbol ","] else furtherTokens es
  | index => tokens testLevel index

def indexNesting : Expr → Nat
  | .tuple (e :: es) => max (nesting testLevel e) (furtherNesting es)
  | index => nesting testLevel index

section Subscript

variable {asked : Nat} {base index : Expr}

theorem text_subscript : text false asked (.subscript base index) =
    text false atomLevel base ++ ('[' :: indexText index ++ [']']) := by
  cases index with
  | tuple es => cases es <;> simp [text, indexText]
  | _ => simp [text, indexText]

theorem tokens_subscript : tokens asked (.subscript base index) =
    tokens atomLevel base ++ (.symbol "[" :: indexTokens index ++ [.symbol "]"]) := by
  cases index with
  | tuple es => cases es <;> simp [tokens, indexTokens]
  | _ => simp [tokens, indexTokens]

theorem nesting_subscript : nesting asked (.subscript base index) =
    max (nesting atomLevel base) (indexNesting index + 1) := by
  cases index with
  | tuple es => cases es <;> simp [nesting, indexNesting]
  | _ => simp [nesting, indexNesting]

end Subscript

/-- The characters that can stand behind any text. -/
def isEnd (c : Char) : Bool :=
  [' ', ')', ']', ',', '['].contains c

/-- The characters that can stand behind the text of an expression. -/
def stops (asked : Nat) (e : Expr) (c : Char) : Bool :=
  isEnd c || (c == '.' && asked == atomLevel && !isInteger e)

/-- The text of an expression is cut into its tokens. -/
def Fits (asked : Nat) (e : Expr) : Prop :=
  Cuts (stops asked e) (nesting asked e) (text false asked e) (tokens asked e)

theorem stops_of_isEnd {asked : Nat} {e : Expr} {c : Char} (h : isEnd c = true) :
    stops asked e c = true := by
  simp [stops, h]

/-- Behind most texts neither a word, nor a constant, nor a number goes on. -/
theorem plain_of_stops {asked : Nat} {e : Expr} {c : Char} (h : stops asked e c = true) :
    isWordChar c = false ∧ isQuote c = false ∧ (isInteger e = true → c ≠ '.') := by
  simp only [stops, isEnd, Bool.or_eq_true, Bool.and_eq_true, List.contains_iff_mem, List.mem_cons,
    List.not_mem_nil, or_false, beq_iff_eq, Bool.not_eq_true'] at h
  rcases h with (rfl | rfl | rfl | rfl | rfl) | ⟨⟨rfl, -⟩, other⟩
  · exact ⟨by decide, by decide, fun _ => by decide⟩
  · exact ⟨by decide, by decide, fun _ => by decide⟩
  · exact ⟨by decide, by decide, fun _ => by decide⟩
  · exact ⟨by decide, by decide, fun _ => by decide⟩
  · exact ⟨by decide, by decide, fun _ => by decide⟩
  · exact ⟨by decide, by decide, fun integer => by rw [integer] at other; cases other⟩

section Pieces

variable {asked : Nat} {e : Expr} {es : List Expr}

theorem joined_cons {separator first : List Char} {rest : List (List Char)} :
    joined separator (first :: rest) = first ++ rest.flatMap (separator ++ ·) := by
  induction rest generalizing first with
  | nil => simp [joined]
  | cons second rest ih => simp [joined, ih]

/-- Further items behind commas. -/
theorem cuts_further (each : ∀ e ∈ es, Fits testLevel e) :
    Cuts isEnd (furtherNesting es) ((texts false es).flatMap ([',', ' '] ++ ·))
      (furtherTokens es) := by
  induction es with
  | nil => exact .nil
  | cons e es ih =>
      obtain ⟨first, others⟩ := List.forall_mem_cons.mp each
      have comma : Cuts (fun c => c == ' ') 0 [','] [.symbol ","] := .comma
      have gap : Cuts (fun _ => true) 0 [' '] [] := .blank
      have item := (comma.append_cons gap rfl).append first fun _ _ _ _ => rfl
      have all := item.append (ih others) fun rest stopped c hc => by
        refine stops_of_isEnd ?_
        cases es with
        | nil => exact stopped c hc
        | cons e es =>
            obtain rfl : ',' = c := by simpa [texts] using hc
            rfl
      refine all.reshape ?_ ?_ ?_
      · simp [texts]
      · simp [furtherTokens]
      · simp [furtherNesting]

/-- The items of a tuple, without brackets around them. -/
theorem cuts_items (first : Fits testLevel e) (each : ∀ e ∈ es, Fits testLevel e) :
    Cuts isEnd (max (nesting testLevel e) (furtherNesting es))
      (items (text false testLevel e :: texts false es))
      (tokens testLevel e ++ if es.isEmpty then [.symbol ","] else furtherTokens es) := by
  cases es with
  | nil =>
      have comma : Cuts isEnd 0 [','] [.symbol ","] := .comma
      refine (Cuts.append_cons first comma (stops_of_isEnd rfl)).reshape ?_ ?_ ?_
      · simp [texts, items]
      · simp
      · simp [furtherNesting]
  | cons e' es =>
      refine (Cuts.append first (cuts_further each) ?_).reshape ?_ ?_ (Nat.le_refl _)
      · intro rest _ c hc
        obtain rfl : ',' = c := by simpa [texts] using hc
        exact stops_of_isEnd rfl
      · simp [texts, items, joined_cons]
      · simp

/-- A text with brackets where its own level is looser than the level that is asked for. -/
theorem cuts_bracketed {own depth : Nat} {cs : List Char} {ts : List Token}
    (h : Cuts isEnd depth cs ts) (loose : own < atomLevel) :
    Cuts (stops asked e) (bracketedNesting asked own depth) (bracketed asked own cs)
      (bracketedTokens asked own ts) := by
  unfold bracketedNesting bracketed bracketedTokens
  split_ifs with tight
  · exact .brackets (List.mem_cons_self) h rfl
  · refine h.weaken (fun c stopped => ?_) (Nat.le_refl _)
    have loosely : (asked == atomLevel) = false := beq_false_of_ne (by omega)
    simpa [stops, loosely] using stopped

theorem head_bracketed {own : Nat} {cs : List Char}
    (h : ∃ c rest, cs = c :: rest ∧ c ≠ '=' ∧ c ≠ '>') :
    ∃ c rest, bracketed asked own cs = c :: rest ∧ c ≠ '=' ∧ c ≠ '>' := by
  unfold bracketed
  split
  · exact ⟨_, _, rfl, by decide, by decide⟩
  · exact h

end Pieces

/-- No text starts with a character that a sign before it could take. -/
theorem head_text {e : Expr} (spelled : e.Spelled) (asked : Nat) :
    ∃ c cs, text false asked e = c :: cs ∧ c ≠ '=' ∧ c ≠ '>' := by
  have start {word rest : List Char} (h : ∃ c cs, word = c :: cs ∧ c ≠ '=' ∧ c ≠ '>') :
      ∃ c cs, word ++ rest = c :: cs ∧ c ≠ '=' ∧ c ≠ '>' := by
    obtain ⟨c, cs, rfl, plain⟩ := h
    exact ⟨c, cs ++ rest, rfl, plain⟩
  induction spelled generalizing asked with
  | null => exact ⟨_, _, rfl, by decide, by decide⟩
  | truth b => cases b <;> exact ⟨_, _, rfl, by decide, by decide⟩
  | @integer n _ =>
      obtain ⟨d, ds, shown, digit⟩ := Token.exists_digit n
      refine ⟨d, ds, shown, ?_, ?_⟩ <;> rintro rfl <;> cases digit
  | text s marked =>
      have plain := Token.isQuote_quoteFor s.toList
      have quoted : ∃ c cs, Text.quoted s.toList = c :: cs ∧ c ≠ '=' ∧ c ≠ '>' := by
        refine ⟨_, _, rfl, ?_, ?_⟩ <;> intro same <;> rw [same] at plain <;> cases plain
      cases marked with
      | true => exact ⟨_, _, by rw [text]; rfl, by decide, by decide⟩
      | false => exact quoted
  | name own =>
      obtain ⟨c, word, chars, plain, -⟩ := Token.exists_start (isOwnName_iff.mp own)
      refine ⟨c, word, chars, ?_, ?_⟩ <;> rintro rfl <;> revert plain <;> decide
  | @tuple list _ ih =>
      cases list with
      | nil => exact ⟨_, _, by rw [text], by decide, by decide⟩
      | cons e es =>
          rw [text]
          refine head_bracketed ?_
          have first := ih e List.mem_cons_self testLevel
          cases es with
          | nil => exact start first
          | cons e' es =>
              rw [texts, items, joined_cons]
              · exact start first
              · exact fun _ => nofun
  | subscript _ _ ihBase _ =>
      rw [text_subscript]
      exact start (ihBase _)
  | member _ _ ih =>
      rw [text, List.append_assoc]
      exact start (ih _)
  | binary _ _ _ ihLeft _ =>
      rw [text_binary, List.append_assoc]
      exact head_bracketed (start (ihLeft _))
  | @unary op _ signed _ _ =>
      rw [text]
      refine head_bracketed (start (start ?_))
      cases op with
      | plus => exact ⟨_, _, rfl, by decide, by decide⟩
      | minus => exact ⟨_, _, rfl, by decide, by decide⟩
      | invert | not => cases signed

section Fits

variable {asked : Nat} {e : Expr}

theorem fits_word {cs : List Char} {ts : List Token}
    (h : Cuts (fun c => !isWordChar c && !isQuote c) 0 cs ts) : Cuts (stops asked e) 0 cs ts := by
  refine h.weaken (fun c stopped => ?_) (Nat.le_refl _)
  obtain ⟨noWord, noQuote, -⟩ := plain_of_stops stopped
  simp [noWord, noQuote]

theorem fits_constant {value : Value} {marked : Bool}
    (spelled : (Expr.constant value marked).Spelled) : Fits asked (.constant value marked) := by
  cases spelled with
  | null =>
      exact fits_word (Cuts.of_word 'N' ['o', 'n', 'e'] rfl rfl (List.all_eq_true.mp rfl) rfl)
  | truth b =>
      cases b with
      | true =>
          exact fits_word (Cuts.of_word 'T' ['r', 'u', 'e'] rfl rfl (List.all_eq_true.mp rfl) rfl)
      | false =>
          exact fits_word
            (Cuts.of_word 'F' ['a', 'l', 's', 'e'] rfl rfl (List.all_eq_true.mp rfl) rfl)
  | integer short =>
      refine (Cuts.integer short).weaken (fun c stopped => ?_) (Nat.le_refl _)
      obtain ⟨noWord, -, noPoint⟩ := plain_of_stops stopped
      simp [noWord, noPoint rfl]
  | text s marked =>
      refine (Cuts.quoted s.toList marked).weaken (fun c stopped => ?_) (Nat.le_refl _)
      simpa using (plain_of_stops stopped).2.1

theorem fits_name {id : String} (own : isOwnName id = true) : Fits asked (.name id) :=
  fits_word (.name (isOwnName_iff.mp own))

/-- A blank before the point keeps it out of an integer. -/
theorem fits_member {base : Expr} {part : String} (own : isOwnName part = true)
    (h : Fits atomLevel base) : Fits asked (.attribute base part) := by
  have name : Cuts (stops asked (.attribute base part)) 0 part.toList [.name part] :=
    fits_word (.name (isOwnName_iff.mp own))
  have pointed : Cuts (stops asked (.attribute base part)) 0 ('.' :: part.toList)
      [.symbol ".", .name part] := by
    obtain ⟨c, word, chars, start, noDigit, -⟩ := Token.exists_start (isOwnName_iff.mp own)
    have noPoint : c ≠ '.' := by
      rintro rfl
      revert start
      decide
    rw [chars] at name ⊢
    exact Cuts.append_cons .point name (by simp [noDigit, noPoint])
  unfold Fits
  cases integer : isInteger base with
  | true =>
      have gap : Cuts (fun _ => true) 0 [' '] [] := .blank
      refine ((Cuts.append_cons h gap (stops_of_isEnd rfl)).append_cons pointed rfl).reshape ?_ ?_ ?_
      · simp [text, integer]
      · simp [tokens]
      · simp [nesting]
  | false =>
      refine (Cuts.append_cons h pointed (by simp [stops, integer])).reshape ?_ ?_ ?_
      · simp [text, integer]
      · simp [tokens]
      · simp [nesting]

theorem fits_binary {op : BinaryOp} {left right : Expr} (arithmetic : op.isArithmetic = true)
    (hleft : Fits (leftLevel op) left) (hright : Fits (rightLevel op) right) :
    Fits asked (.binary op left right) := by
  have gap : Cuts (fun _ => true) 0 [' '] [] := .blank
  have inner : Cuts isEnd (max (nesting (leftLevel op) left) (nesting (rightLevel op) right))
      (text false (leftLevel op) left ++ ' ' :: op.symbol.toList ++
        ' ' :: text false (rightLevel op) right)
      (tokens (leftLevel op) left ++ .symbol op.symbol :: tokens (rightLevel op) right) := by
    have before := (Cuts.append_cons hleft gap (stops_of_isEnd rfl)).append (.operator arithmetic)
      fun _ _ _ _ => rfl
    have behind := (before.append_cons gap rfl).append hright fun _ _ _ _ => rfl
    refine (behind.weaken (fun _ stopped => stops_of_isEnd stopped) (Nat.le_refl _)).reshape ?_ ?_ ?_
    · simp
    · simp
    · simp
  unfold Fits
  rw [text_binary, tokens, nesting]
  exact cuts_bracketed inner (by cases op <;> decide)

theorem fits_unary {op : UnaryOp} {operand : Expr} (signed : op.isSign = true)
    (spelled : operand.Spelled) (h : Fits (unaryLevel op) operand) :
    Fits asked (.unary op operand) := by
  obtain ⟨c, cs, shown, noEqual, noArrow⟩ := head_text spelled (unaryLevel op)
  have inner : Cuts isEnd (nesting (unaryLevel op) operand)
      (op.symbol.toList ++ text false (unaryLevel op) operand)
      (.symbol op.symbol :: tokens (unaryLevel op) operand) := by
    have all := (Cuts.sign signed).append h fun rest _ d hd => by
      obtain rfl : c = d := by simpa [shown] using hd
      simp [noEqual, noArrow]
    exact (all.weaken (fun _ stopped => stops_of_isEnd stopped) (Nat.le_refl _)).reshape rfl rfl
      (by simp)
  have noGap : op ≠ .not := by
    rintro rfl
    cases signed
  unfold Fits
  rw [text, tokens, nesting]
  simp only [noGap, if_false, List.append_nil]
  exact cuts_bracketed inner (by cases op <;> decide)

theorem fits_tuple {list : List Expr} (each : ∀ e ∈ list, Fits testLevel e) :
    Fits asked (.tuple list) := by
  unfold Fits
  cases list with
  | nil =>
      rw [text, tokens, nesting]
      have inside : Cuts isEnd 0 [] [] := .nil
      exact .brackets List.mem_cons_self inside rfl
  | cons e es =>
      obtain ⟨first, others⟩ := List.forall_mem_cons.mp each
      rw [text, tokens, nesting]
      exact cuts_bracketed (cuts_items first others) (by decide)

/-- In a subscript stands a text on its own, or the items of a tuple. -/
theorem cuts_index {index : Expr} (h : Fits testLevel index)
    (each : ∀ list, index = .tuple list → ∀ e ∈ list, Fits testLevel e) :
    Cuts isEnd (indexNesting index) (indexText index) (indexTokens index) := by
  have alone : Cuts isEnd (nesting testLevel index) (text false testLevel index)
      (tokens testLevel index) := h.weaken (fun _ stopped => stops_of_isEnd stopped) (Nat.le_refl _)
  cases index with
  | tuple list =>
      cases list with
      | nil => exact alone
      | cons e es =>
          obtain ⟨first, others⟩ := List.forall_mem_cons.mp (each _ rfl)
          exact cuts_items first others
  | _ => exact alone

theorem fits_subscript {base index : Expr} (hbase : Fits atomLevel base)
    (hindex : Cuts isEnd (indexNesting index) (indexText index) (indexTokens index)) :
    Fits asked (.subscript base index) := by
  have inside : Cuts (stops asked (.subscript base index)) (indexNesting index + 1)
      ('[' :: indexText index ++ [']']) (.symbol "[" :: indexTokens index ++ [.symbol "]"]) :=
    .brackets (List.mem_cons_of_mem _ List.mem_cons_self) hindex rfl
  unfold Fits
  rw [text_subscript, tokens_subscript, nesting_subscript]
  exact Cuts.append_cons hbase inside (stops_of_isEnd rfl)

/-- The text of an id that can be read back is cut into its tokens. -/
theorem fits (spelled : e.Spelled) (asked : Nat) : Fits asked e := by
  induction spelled using Expr.Spelled.parts generalizing asked with
  | constant h => exact fits_constant h
  | name own => exact fits_name own
  | tuple _ ih => exact fits_tuple fun e he => ih e he testLevel
  | subscript _ _ ihBase ihIndex ihParts =>
      refine fits_subscript (ihBase _) (cuts_index (ihIndex _) fun list same e he => ?_)
      obtain ⟨_, ih⟩ := ihParts list same e he
      exact ih _
  | member own _ ih => exact fits_member own (ih _)
  | binary arithmetic _ _ ihLeft ihRight => exact fits_binary arithmetic (ihLeft _) (ihRight _)
  | unary signed operand ih => exact fits_unary signed operand (ih _)

end Fits

/-- Characters that reading keeps as they are: no line is ended by a carriage return, and no text
holds a zero character. -/
def isKept (c : Char) : Bool :=
  c != '\r' && c.toNat != 0

section Kept

theorem isKept_of_word {c : Char} (h : isWordChar c = true) : isKept c = true := by
  unfold isKept
  rw [Bool.and_eq_true, bne_iff_ne, bne_iff_ne]
  refine ⟨?_, fun zero => ?_⟩
  · rintro rfl
    revert h
    decide
  · obtain rfl : c = '\x00' := Char.ext (UInt32.toNat_inj.mp zero)
    revert h
    decide

theorem isKept_of_printable {c : Char} (h : Text.isPrintable c = true) : isKept c = true := by
  unfold isKept
  rw [Bool.and_eq_true, bne_iff_ne, bne_iff_ne]
  refine ⟨?_, fun zero => ?_⟩
  · rintro rfl
    revert h
    decide
  · rw [Text.isPrintable, zero, if_pos (by decide)] at h
    cases h

theorem isKept_of_digit {c : Char} (h : c.isDigit = true) : isKept c = true :=
  isKept_of_word (by simp [isWordChar, Char.isAlphanum, h])

theorem isKept_of_quote {c : Char} (h : isQuote c = true) : isKept c = true := by
  simp only [isQuote, Bool.or_eq_true, beq_iff_eq] at h
  rcases h with rfl | rfl <;> decide

theorem kept_hexDigits {width n : Nat} : (Text.hexDigits width n).all isKept = true := by
  refine List.all_eq_true.mpr fun d hd => ?_
  obtain ⟨k, small, rfl⟩ := Token.mem_hexDigits hd
  have all : ∀ k < 16, isKept (Text.hexDigit k) = true := by decide
  exact all k small

theorem kept_quotedChar {quote c : Char} (isQuoted : isQuote quote = true) :
    (Text.quotedChar quote c).all isKept = true := by
  have slash : isKept '\\' = true := by decide
  unfold Text.quotedChar Text.codeEscape
  split_ifs with h₁ h₂ h₃ h₄ h₅ h₆ h₇
  · have self : isKept c = true := by
      simp only [Bool.or_eq_true, beq_iff_eq] at h₁
      rcases h₁ with rfl | rfl
      · exact isKept_of_quote isQuoted
      · exact slash
    simp [slash, self]
  · decide
  · decide
  · decide
  · simpa using isKept_of_printable h₅
  · exact kept_hexDigits
  · exact kept_hexDigits
  · exact kept_hexDigits

theorem kept_quoted (cs : List Char) : (Text.quoted cs).all isKept = true := by
  have isQuoted := Token.isQuote_quoteFor cs
  have quote := isKept_of_quote isQuoted
  have body : (cs.flatMap (Text.quotedChar (Text.quoteFor cs))).all isKept = true := by
    rw [List.all_flatMap]
    exact List.all_eq_true.mpr fun c _ => kept_quotedChar isQuoted
  simp [Text.quoted, quote, body]

theorem kept_name {id : String} (own : isOwnName id = true) : id.toList.all isKept = true := by
  obtain ⟨c, word, chars, start, -, more⟩ := Token.exists_start (isOwnName_iff.mp own)
  rw [chars, List.all_cons, isKept_of_word start, List.all_eq_true.mpr fun d hd =>
    isKept_of_word (more d hd)]
  rfl

theorem kept_bracketed {asked own : Nat} {cs : List Char} (h : cs.all isKept = true) :
    (bracketed asked own cs).all isKept = true := by
  have brackets : isKept '(' = true ∧ isKept ')' = true := by decide
  unfold bracketed
  split
  · simp [brackets, h]
  · exact h

theorem kept_items {e : Expr} {es : List Expr}
    (each : ∀ e' ∈ e :: es, (text false testLevel e').all isKept = true) :
    (items (text false testLevel e :: texts false es)).all isKept = true := by
  have separators : isKept ',' = true ∧ isKept ' ' = true := by decide
  obtain ⟨first, others⟩ := List.forall_mem_cons.mp each
  have further : ((texts false es).flatMap ([',', ' '] ++ ·)).all isKept = true := by
    induction es with
    | nil => rfl
    | cons e' es ih =>
        obtain ⟨second, rest⟩ := List.forall_mem_cons.mp others
        have more := ih (List.forall_mem_cons.mpr ⟨first, rest⟩) rest
        simp only [texts, List.flatMap_cons, List.all_append, second, more, separators,
          List.all_cons, List.all_nil, Bool.and_self]
  cases es with
  | nil => simp only [texts, items, List.all_append, List.all_cons, List.all_nil, first, separators,
      Bool.and_self]
  | cons e' es =>
      rw [texts] at further ⊢
      rw [items, joined_cons, List.all_append, first, further]
      · rfl
      · exact fun _ => nofun

theorem kept_index {index : Expr} (h : (text false testLevel index).all isKept = true)
    (each : ∀ list, index = .tuple list → ∀ e ∈ list, (text false testLevel e).all isKept = true) :
    (indexText index).all isKept = true := by
  cases index with
  | tuple list =>
      cases list with
      | nil => exact h
      | cons e es => exact kept_items (each _ rfl)
  | _ => exact h

theorem kept_constant {value : Value} {marked : Bool}
    (spelled : (Expr.constant value marked).Spelled) :
    (constantText false value marked).all isKept = true := by
  cases spelled with
  | null => decide
  | truth b => cases b <;> decide
  | @integer n short =>
      exact List.all_eq_true.mpr fun c hc =>
        isKept_of_digit (Nat.isDigit_of_mem_toDigits (b := 10) (n := n) (by decide) (by decide) hc)
  | text s marked =>
      have quoted := kept_quoted s.toList
      cases marked with
      | true => exact (Bool.and_eq_true _ _).mpr ⟨by decide, quoted⟩
      | false => exact quoted

/-- Every character of the text of an id that can be read back is kept. -/
theorem kept_text {e : Expr} (spelled : e.Spelled) (asked : Nat) :
    (text false asked e).all isKept = true := by
  have signs : isKept '.' = true ∧ isKept ' ' = true ∧ isKept '[' = true ∧ isKept ']' = true := by
    decide
  induction spelled using Expr.Spelled.parts generalizing asked with
  | constant h => exact kept_constant h
  | name own => exact kept_name own
  | @tuple list _ ih =>
      cases list with
      | nil =>
          rw [text]
          decide
      | cons e es =>
          rw [text]
          exact kept_bracketed (kept_items fun e he => ih e he testLevel)
  | @subscript _ index _ _ ihBase ihIndex ihParts =>
      have inside : (indexText index).all isKept = true := by
        refine kept_index (ihIndex _) fun list same e he => ?_
        obtain ⟨_, ih⟩ := ihParts list same e he
        exact ih _
      rw [text_subscript]
      simp [ihBase, inside, signs]
  | member own _ ih =>
      rw [text]
      split <;> simp [ih, kept_name own, signs]
  | @binary op _ _ arithmetic _ _ ihLeft ihRight =>
      have symbol : op.symbol.toList.all isKept = true := by cases op <;> decide
      rw [text_binary]
      refine kept_bracketed ?_
      simp [ihLeft, ihRight, symbol, signs]
  | @unary op _ signed _ ih =>
      have symbol : op.symbol.toList.all isKept = true := by cases op <;> decide
      rw [text]
      refine kept_bracketed ?_
      split <;> simp [ih, symbol, signs]

end Kept

end Printer

end BlockAngular.Rule
