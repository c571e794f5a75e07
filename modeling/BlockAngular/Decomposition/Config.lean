import BlockAngular.Error

/-! # Configuration

The names and right-hand sides of the convexity constraints, the name of the
objectives, and the verbosity. All options are taken as they are given and fail where
they are used.
-/

namespace BlockAngular

/-- The options of a decomposition. -/
structure Config where
  lowerName : Value
  upperName : Value
  lowerRhs : Value
  upperRhs : Value
  /-- The name of the objectives, in place of that of the given one. -/
  objectiveName : Value
  verbosity : Value

namespace Config

/-- The options that hold if none are given. -/
def standard : Config where
  lowerName := .str "convexity_lb"
  upperName := .str "convexity_ub"
  lowerRhs := .float 0.0
  upperRhs := .float 1.0
  objectiveName := .null
  verbosity := .int 0

/-- The options by name. -/
def fields (c : Config) : List (String × Value) :=
  [("convexity_lower_name", c.lowerName),
    ("convexity_upper_name", c.upperName),
    ("convexity_lower_rhs", c.lowerRhs),
    ("convexity_upper_rhs", c.upperRhs),
    ("objective_name", c.objectiveName),
    ("verbosity", c.verbosity)]

/-- Set an option; there are no others. -/
def set? (c : Config) (name : String) (value : Value) : Option Config :=
  match name with
  | "convexity_lower_name" => some { c with lowerName := value }
  | "convexity_upper_name" => some { c with upperName := value }
  | "convexity_lower_rhs" => some { c with lowerRhs := value }
  | "convexity_upper_rhs" => some { c with upperRhs := value }
  | "objective_name" => some { c with objectiveName := value }
  | "verbosity" => some { c with verbosity := value }
  | _ => none

/-- The names among some options that are none. -/
def unknown (options : List (String × Value)) : List String :=
  (options.map (·.1)).filter fun name => (standard.set? name .null).isNone

/-- Set some options, leaving out unknown ones. -/
def update (c : Config) (options : List (String × Value)) : Config :=
  options.foldl (fun c (name, value) => (c.set? name value).getD c) c

/-- Set some options; the unknown ones are reported in alphabetical order. -/
def withOptions (c : Config) (options : List (String × Value)) : Except Error Config :=
  match unknown options with
  | [] => .ok (c.update options)
  | names => .error (.unknownOptions (names.mergeSort fun a b => decide (a ≤ b)))

/-- The configuration with some options, all of which have to be known. -/
def ofOptions (options : List (String × Value)) : Except Fault Config :=
  if (unknown options).isEmpty then .ok (standard.update options) else .error .wrongKind

/-- The name of the objectives; an empty one counts as not given. -/
def objectiveNameFor (c : Config) (own : String) : Value :=
  if c.objectiveName.isGiven then c.objectiveName else .str own

/-- An option that names a component; only text can. -/
def asName : Value → Except Fault String
  | .str name => .ok name
  | _ => .error .wrongKind

end Config

end BlockAngular
