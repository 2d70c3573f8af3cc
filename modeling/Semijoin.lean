import Semijoin.Calendar.IsoText
import Semijoin.Config.Load
import Semijoin.Cost.Estimate
import Semijoin.Logging.Setup
import Semijoin.Numeric.Fraction
import Semijoin.Optimizer
import Semijoin.Plan.Arrow
import Semijoin.Plan.Explain
import Semijoin.Proofs.Alphabet
import Semijoin.Proofs.Application
import Semijoin.Proofs.Attempts
import Semijoin.Proofs.Chains
import Semijoin.Proofs.Cheapest
import Semijoin.Proofs.Composition
import Semijoin.Proofs.Content
import Semijoin.Proofs.Counts
import Semijoin.Proofs.Dispatch
import Semijoin.Proofs.Documents
import Semijoin.Proofs.Equivalence
import Semijoin.Proofs.Estimates
import Semijoin.Proofs.Exchange
import Semijoin.Proofs.Foreign
import Semijoin.Proofs.History
import Semijoin.Proofs.Identity
import Semijoin.Proofs.Legality
import Semijoin.Proofs.Monotone
import Semijoin.Proofs.Names
import Semijoin.Proofs.Nullability
import Semijoin.Proofs.Outline
import Semijoin.Proofs.Readability
import Semijoin.Proofs.Refusal
import Semijoin.Proofs.Safety
import Semijoin.Proofs.Sections
import Semijoin.Proofs.Setters
import Semijoin.Proofs.Shifting
import Semijoin.Proofs.Sizes
import Semijoin.Proofs.StructuredLine
import Semijoin.Proofs.Walk
