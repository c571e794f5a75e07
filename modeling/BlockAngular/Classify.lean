import BlockAngular.Error
import BlockAngular.Value.Arithmetic

/-! # Annotation functions

An annotation function is asked once for every declared key. It answers with a
block, with nothing, or with something that is no block, or it fails.
-/

namespace BlockAngular

/-- The answer of an annotation function. -/
inductive Answer where
  | block (b : Block)
  /-- The key has no block. -/
  | missing
  /-- Something else; an absent value is as good as nothing. -/
  | other (v : Value)

/-- The block that an answer names. -/
def Answer.toBlock? : Answer → Option Block
  | .block b => some b
  | _ => none

/-- An annotation function. -/
abbrev Classify := Key → Except Error Answer

namespace Classify

/-- Everything goes to the master. -/
def allMaster : Classify :=
  fun _ => .ok (.block .master)

/-- Nothing has a block. -/
def nowhere : Classify :=
  fun _ => .ok .missing

/-- A key goes to the subproblem whose id stands at a position of its index. -/
def byIndex (position : Value) : Classify := fun key =>
  match Value.item (.tuple key.index) position with
  | .ok id => .ok (.block (.subproblem id))
  | .error e => .error (.fault e)

/-- The answer is looked up by key, then by name; other keys are asked elsewhere. Of
    several entries for a key or a name the last one counts. -/
def byTables (keys : List (Key × Classify)) (names : List (String × Classify)) (other : Classify) :
    Classify := fun key =>
  match keys.reverse.find? fun (k, _) => k.same key with
  | some (_, answer) => answer key
  | none =>
    match names.reverse.find? fun (name, _) => name == key.name with
    | some (_, answer) => answer key
    | none => other key

/-- Something that cannot be asked. -/
def uncallable : Classify :=
  fun _ => .error (.fault .wrongKind)

/-- Ask for one key and insist on a block. An error that reports another key as
    missing is turned into one for the key in question. -/
def resolve (classify : Classify) (key : Key) : Except Error Block :=
  match classify key with
  | .ok (.block b) => .ok b
  | .ok .missing | .ok (.other .null) => .error (.unassigned (.key key) none)
  | .ok (.other answer) => .error (.notABlock key answer)
  | .error (.unassigned subject note) =>
    if subject.isKey key then .error (.unassigned subject note)
    else .error (.unassigned (.key key) none)
  | .error e => .error e

end Classify

end BlockAngular
