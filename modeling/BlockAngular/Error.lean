import BlockAngular.Block
import BlockAngular.Fault
import BlockAngular.Model.Handle

/-! # Errors

Every way in which the library refuses its input, by cause. The wording of each
stands in one place, `Error.message?`; faults of operations on data have no
wording of their own.
-/

namespace BlockAngular

/-- What is wrong with the left-hand side of a rule. -/
inductive PatternFlaw where
  /-- The text is no expression. -/
  | unreadable (text : String)
  /-- The text is neither a name nor a name with indices. -/
  | noPattern (text : String)
  /-- An index position is no name. -/
  | noIndexName (element text : String)
  /-- A name is captured at two positions. -/
  | capturedTwice (name text : String)
  /-- The rule has no arrow. -/
  | noArrow (text : String)
  /-- Two rules have the same name and number of indices. -/
  | duplicate (name : String) (arity : Nat)

/-- What is wrong with the right-hand side of a rule. -/
inductive AssignmentFlaw where
  /-- The text is no expression. -/
  | unreadable (text : String)
  /-- The text is no call of a named function. -/
  | noCall (text : String)
  /-- The call has keyword arguments. -/
  | hasKeywords (text : String)
  /-- The function is not one of the two destinations. -/
  | unknownFunction (name : String)
  /-- A name is neither captured nor given. -/
  | unknownName (name text : String)
  /-- An attribute is private. -/
  | privateAttribute (name text : String)
  /-- A part of the expression is of a kind that rules do not accept. -/
  | unsupported (part text : String)

/-- Which destination got the wrong number of arguments. -/
inductive ArityFlaw where
  | master (given : Nat)
  | subproblem (given : Nat)

/-- What there is nothing of. -/
inductive Nothing where
  | rules | vars | constraints
  deriving DecidableEq

/-- How an image and the mapping of variables disagree. -/
inductive Inconsistency where
  /-- A variable of an expression has no image. -/
  | noImage (handle : Handle) (context : String)
  /-- A variable or constraint was registered before. -/
  | registeredTwice (preimage : Handle)
  /-- A variable is not the image of any other. -/
  | noPreimage (image : Handle)

/-- A name of the decomposition that cannot be used. -/
inductive NameClash where
  | objective (name : Value)
  | sameConvexityNames (name : Value)
  | convexity (name : Value)

/-- What a missing block is reported for. -/
inductive Subject where
  | key (key : Key)
  | raw (value : Value)

/-- A refusal, by its cause. -/
inductive Error where
  /-- An operation on data failed of itself. -/
  | fault (cause : Fault)
  | unassigned (subject : Subject) (note : Option String)
  | inconsistent (cause : Inconsistency)
  | empty (what : Nothing)
  | notAffine (context : String)
  | malformedPattern (flaw : PatternFlaw)
  | malformedAssignment (flaw : AssignmentFlaw)
  | arity (flaw : ArityFlaw)
  /-- An expression of a kind that has no value. -/
  | cannotEvaluate (source : String)
  /-- An answer for a key that is no block. -/
  | notABlock (key : Key) (answer : Value)
  /-- A component that a model does not have. -/
  | noComponent (name : String)
  /-- A subproblem that a decomposition does not have. -/
  | noSubproblem (id : Value)
  /-- More than one active objective. -/
  | severalObjectives (names : List String)
  | nameClash (clash : NameClash)
  /-- No annotation function was given. -/
  | noClassifier
  /-- Options that the configuration does not have. -/
  | unknownOptions (names : List String)

/-- The written form of a text. -/
def quotedString (s : String) : String :=
  String.ofList (Text.quoted s.toList)

namespace PatternFlaw

/-- The wording of a flaw of a pattern. -/
def message : PatternFlaw → String
  | .unreadable text => "Cannot parse pattern " ++ quotedString text
  | .noPattern text => "Expected name or name[indices], got " ++ quotedString text
  | .noIndexName element text =>
    "Index must be a name or _, got " ++ quotedString element ++ " in " ++ quotedString text
  | .capturedTwice name text =>
    "Index name " ++ quotedString name ++ " is captured twice in " ++ quotedString text
  | .noArrow text => "Expected 'pattern => assignment', got " ++ quotedString text
  | .duplicate name arity =>
    "Duplicate rule for " ++ quotedString name ++ " with " ++ Nat.repr arity ++ " indices"

end PatternFlaw

namespace AssignmentFlaw

/-- The wording of a flaw of a destination. -/
def message : AssignmentFlaw → String
  | .unreadable text => "Cannot parse assignment " ++ quotedString text
  | .noCall text => "Expected master() or subproblem(id), got " ++ quotedString text
  | .hasKeywords text => "Keyword arguments are not accepted in " ++ quotedString text
  | .unknownFunction name => "Unknown assignment function " ++ quotedString name
  | .unknownName name text =>
    "Name " ++ quotedString name ++ " in " ++ quotedString text ++
      " is neither a captured index nor in the namespace"
  | .privateAttribute name text =>
    "Private attribute " ++ quotedString name ++ " is not accepted in " ++ quotedString text
  | .unsupported part text =>
    "Unsupported expression " ++ quotedString part ++ " in " ++ quotedString text

end AssignmentFlaw

namespace ArityFlaw

/-- The wording of a wrong number of arguments. -/
def message : ArityFlaw → String
  | .master given => "master() takes no arguments, got " ++ Nat.repr given
  | .subproblem given => "subproblem() requires exactly one argument, got " ++ Nat.repr given

end ArityFlaw

namespace Nothing

/-- The wording for what there is none of. -/
def message : Nothing → String
  | .rules => "No decomposition rules were given"
  | .vars => "The model declares no variables"
  | .constraints => "The model declares no active constraints"

end Nothing

namespace Inconsistency

/-- The wording of an inconsistency, given the names of variables and constraints. -/
def message (nameOf : Handle → String) : Inconsistency → String
  | .noImage h context =>
    "Variable " ++ nameOf h ++ " in " ++ context ++ " has no image in the variable mapping"
  | .registeredTwice preimage => nameOf preimage ++ " was registered twice"
  | .noPreimage image => nameOf image ++ " is not the image of any original variable"

end Inconsistency

namespace NameClash

/-- The wording of a clash of names. -/
def message : NameClash → String
  | .objective name =>
    "Objective name " ++ name.render ++ " clashes with a component of the original model"
  | .sameConvexityNames name =>
    "Convexity constraint names must differ, both are " ++ name.render
  | .convexity name =>
    "Convexity constraint name " ++ name.render ++
      " clashes with a component of the original model"

end NameClash

namespace Subject

/-- The subject as it stands in a message: a key or a text plainly, any other value
    by its written form. -/
def render : Subject → String
  | .key k => k.render
  | .raw (.str s) => s
  | .raw v => v.render

/-- Whether the subject has a written form. -/
def isWritable : Subject → Bool
  | .key k => Value.allWritable k.index
  | .raw v => v.isWritable

/-- Whether the subject is an equal key. -/
def isKey (subject : Subject) (expected : Key) : Bool :=
  match subject with
  | .key k => k.same expected
  | .raw _ => false

end Subject

namespace Error

/-- The wording of an error, given the names of variables and constraints; faults have
    none. -/
def message? (nameOf : Handle → String) : Error → Option String
  | .fault _ => none
  | .unassigned subject note =>
    some ((note.filter (!·.isEmpty)).getD ("No annotation for " ++ subject.render ++
      "; every variable and constraint must be annotated."))
  | .inconsistent cause => some (cause.message nameOf)
  | .empty what => some what.message
  | .notAffine context => some ("The " ++ context ++ " is not affine")
  | .malformedPattern flaw => some flaw.message
  | .malformedAssignment flaw => some flaw.message
  | .arity flaw => some flaw.message
  | .cannotEvaluate source => some ("Cannot evaluate " ++ quotedString source)
  | .notABlock key answer =>
    some ("Annotation for " ++ key.render ++ " must be master() or subproblem(id), got " ++
      answer.render)
  | .noComponent name => some ("Model has no component named " ++ quotedString name)
  | .noSubproblem id => some ("No subproblem with id " ++ id.render)
  | .severalObjectives names =>
    some ("Expected at most one active objective, found " ++ Nat.repr names.length ++ ": " ++
      ", ".intercalate names)
  | .nameClash clash => some clash.message
  | .noClassifier =>
    some "An annotation function is required, pass classify= here or to the constructor"
  | .unknownOptions names =>
    some ("Unknown configuration options: " ++ ", ".intercalate names)

/-- Whether the values in the wording of an error have written forms, given whether the names
    of variables and constraints have. -/
def isWritable (nameable : Handle → Bool) : Error → Bool
  | .unassigned subject note => (note.any (!·.isEmpty)) || subject.isWritable
  | .inconsistent (.noImage h _) | .inconsistent (.registeredTwice h)
  | .inconsistent (.noPreimage h) => nameable h
  | .notABlock key answer => Value.allWritable key.index && answer.isWritable
  | .noSubproblem id => id.isWritable
  | .nameClash (.objective name) | .nameClash (.sameConvexityNames name)
  | .nameClash (.convexity name) => name.isWritable
  | _ => true

/-- An error as it is reported: one that cannot be worded is reported as an unusable value. -/
def reported (nameable : Handle → Bool) (e : Error) : Error :=
  if e.isWritable nameable then e else .fault .badValue

end Error

end BlockAngular
