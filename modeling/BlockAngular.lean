import BlockAngular.GeneralizedAssignment
import BlockAngular.Pricing.Quote
import BlockAngular.Proofs.Decomposition.Soundness
import BlockAngular.Workbench.Images
import BlockAngular.Proofs.Invariant
import BlockAngular.Proofs.Decomposition.CurrentValues
import BlockAngular.Proofs.Decomposition.Merging
import BlockAngular.Proofs.Decomposition.Fidelity
import BlockAngular.Proofs.Decomposition.Prices
import BlockAngular.Proofs.Decomposition.Agreement
import BlockAngular.Proofs.Affine.Dissolve
import BlockAngular.Proofs.Model.Declared
import BlockAngular.Proofs.Rule.Checking
import BlockAngular.Proofs.Rule.Compiled
import BlockAngular.Proofs.Rule.Constants
import BlockAngular.Proofs.Rule.Leaves
import BlockAngular.Proofs.Rule.Reading
import BlockAngular.Proofs.Rule.RoundTrip
import BlockAngular.Proofs.Rule.Acceptance
import BlockAngular.Proofs.Value.Precedence
import BlockAngular.Proofs.Recovery
import BlockAngular.Proofs.Resolution
import BlockAngular.Proofs.GeneralizedAssignment.Machines
import BlockAngular.Proofs.Decomposition.Rebuilding
import BlockAngular.Proofs.Decomposition.Scaffold
import BlockAngular.Proofs.Freezing
import BlockAngular.Proofs.Model.Enumeration
import BlockAngular.Proofs.Rule.Renaming
