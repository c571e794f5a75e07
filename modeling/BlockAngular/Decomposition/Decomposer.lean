import BlockAngular.Decomposition.Events
import BlockAngular.Rule.Classifier

/-! # Decomposers

A decomposer keeps a configuration and perhaps an annotation function for several
runs. A run may bring an annotation function and options of its own, which hold for
this run only. Options cannot have the names of what is handed to the run anyway.
-/

namespace BlockAngular

/-- A configuration and perhaps an annotation function. -/
structure Decomposer where
  config : Config
  classify : Option Classify

/-- Options by name. -/
abbrev Options := List (String × Value)

/-- Refuse options with names that stand for something else. -/
def Options.avoid (options : Options) (names : List String) : Except Error Unit :=
  if options.any fun (name, _) => names.contains name then .error (.fault .wrongKind) else .ok ()

namespace Decomposer

/-- Decompose a model. -/
def run (d : Decomposer) (first : Nat) (m : Model) (classify : Option Classify)
    (options : Options) : Except Error Reformulation := do
  Options.avoid options ["self", "model", "classify"]
  match classify.or d.classify with
  | none => .error .noClassifier
  | some classify => do
    let config ← d.config.withOptions options
    Decomposition.decompose first m classify config

/-- Decompose a model with an annotation function and a configuration. -/
def runOnce (first : Nat) (m : Model) (classify : Option Classify) (config : Config)
    (options : Options) : Except Error Reformulation := do
  Options.avoid options ["config"]
  (Decomposer.mk config classify).run first m none options

end Decomposer

namespace Classifier

/-- The annotation function of some rules. -/
def toClassify (c : Classifier) : Classify :=
  fun key => (c.block key).map .block

/-- Decompose a model by rules; they may turn out not to be readable. -/
def decompose (rules : Except Error Classifier) (first : Nat) (m : Model) (config : Config)
    (options : Options) : Except Error Reformulation := do
  Options.avoid options ["model", "rules", "namespace", "config"]
  let rules ← rules
  Decomposer.runOnce first m (some rules.toClassify) config options

end Classifier

end BlockAngular
