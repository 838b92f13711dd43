import SheetTypes.Canonical
import SheetTypes.CommandLine
import SheetTypes.CommandLine.Arguments
import SheetTypes.CommandLine.Outcome
import SheetTypes.Concrete
import SheetTypes.Concrete.OfInferred
import SheetTypes.Concrete.OfTemplate
import SheetTypes.Config
import SheetTypes.Config.Discovery
import SheetTypes.Diagnostic
import SheetTypes.Diagnostic.Record
import SheetTypes.Files
import SheetTypes.Json
import SheetTypes.Main
import SheetTypes.OrderedMap
import SheetTypes.PowerProduct
import SheetTypes.Powers
import SheetTypes.Proofs.Actions
import SheetTypes.Proofs.Batches
import SheetTypes.Proofs.Canonical.Conversion
import SheetTypes.Proofs.Canonical.Expansion
import SheetTypes.Proofs.Canonical.Limits
import SheetTypes.Proofs.Canonical.Projection
import SheetTypes.Proofs.Canonical.Rounds
import SheetTypes.Proofs.Capabilities
import SheetTypes.Proofs.Concrete.Checked
import SheetTypes.Proofs.Concrete.Comparison
import SheetTypes.Proofs.Concrete.Form
import SheetTypes.Proofs.Concrete.Instances
import SheetTypes.Proofs.Concrete.Leaves
import SheetTypes.Proofs.Concrete.Parts
import SheetTypes.Proofs.Concrete.Resolution
import SheetTypes.Proofs.Concrete.Retention
import SheetTypes.Proofs.Concrete.Strict
import SheetTypes.Proofs.Concrete.Text
import SheetTypes.Proofs.Concrete.Unfolding
import SheetTypes.Proofs.Exponents
import SheetTypes.Proofs.Faults
import SheetTypes.Proofs.Powers
import SheetTypes.Proofs.Registry.Entries
import SheetTypes.Proofs.Registry.Growth
import SheetTypes.Proofs.Registry.Invariants
import SheetTypes.Proofs.Registry.Loading
import SheetTypes.Proofs.Registry.Orders
import SheetTypes.Proofs.Registry.Parameters
import SheetTypes.Proofs.Registry.Reachability
import SheetTypes.Proofs.Session.Application
import SheetTypes.Proofs.Session.Attempts
import SheetTypes.Proofs.Session.Concretization
import SheetTypes.Proofs.Session.Failures
import SheetTypes.Proofs.Session.Frames
import SheetTypes.Proofs.Session.Freshness
import SheetTypes.Proofs.Session.Instantiation
import SheetTypes.Proofs.Session.Invariants
import SheetTypes.Proofs.Session.Mismatches
import SheetTypes.Proofs.Session.Offers
import SheetTypes.Proofs.Session.Operations
import SheetTypes.Proofs.Session.Reachability
import SheetTypes.Proofs.Session.Rejections
import SheetTypes.Proofs.Session.Repetition
import SheetTypes.Proofs.Session.Reports
import SheetTypes.Proofs.Session.Requirements
import SheetTypes.Proofs.Session.Solving
import SheetTypes.Proofs.Session.Symmetry
import SheetTypes.Proofs.Session.Tags
import SheetTypes.Proofs.Session.Transparency
import SheetTypes.Proofs.Session.Unification
import SheetTypes.Proofs.Session.Units
import SheetTypes.Proofs.Store.Enforcement
import SheetTypes.Proofs.Store.Evolution
import SheetTypes.Proofs.Store.Frames
import SheetTypes.Proofs.Store.Links
import SheetTypes.Proofs.Store.Pruning
import SheetTypes.Proofs.Store.Resolution
import SheetTypes.Proofs.Store.Separation
import SheetTypes.Proofs.Store.Shortening
import SheetTypes.Proofs.Store.Solutions
import SheetTypes.Proofs.Store.Valuation
import SheetTypes.Proofs.Store.Walks
import SheetTypes.Proofs.Substitution
import SheetTypes.Proofs.Template.Grammar
import SheetTypes.Proofs.Template.Lexing
import SheetTypes.Proofs.Template.Mentions
import SheetTypes.Proofs.Template.Progress
import SheetTypes.Proofs.Template.Reading
import SheetTypes.Proofs.Template.Renaming
import SheetTypes.Proofs.Template.RoundTrip
import SheetTypes.Proofs.Template.TypeReading
import SheetTypes.Proofs.Template.UnitReading
import SheetTypes.Proofs.Text.Characters
import SheetTypes.Proofs.Text.EditDistance
import SheetTypes.Proofs.Text.Scales
import SheetTypes.Proofs.Unification.Attempts
import SheetTypes.Proofs.Unification.Clashes
import SheetTypes.Proofs.Unification.Composition
import SheetTypes.Proofs.Unification.Descent
import SheetTypes.Proofs.Unification.Equations
import SheetTypes.Proofs.Unification.Exactness
import SheetTypes.Proofs.Unification.Failures
import SheetTypes.Proofs.Unification.Footprint
import SheetTypes.Proofs.Unification.Rounds
import SheetTypes.Proofs.Unification.Spare
import SheetTypes.Proofs.Unification.Symmetry
import SheetTypes.Proofs.Unification.Types
import SheetTypes.Proofs.Unification.Units
import SheetTypes.Proofs.UnitValue
import SheetTypes.Registry
import SheetTypes.Registry.Declaration
import SheetTypes.Registry.File
import SheetTypes.Registry.FileFormat
import SheetTypes.Requirements
import SheetTypes.Scale
import SheetTypes.Session
import SheetTypes.Store
import SheetTypes.Store.Enforce
import SheetTypes.Store.Resolve
import SheetTypes.Template
import SheetTypes.Template.Instantiation
import SheetTypes.Template.Parser
import SheetTypes.Template.Token
import SheetTypes.Text.Alphabetic
import SheetTypes.Text.Blank
import SheetTypes.Text.CodeRange
import SheetTypes.Text.EditDistance
import SheetTypes.Text.Numeric
import SheetTypes.Text.Quoted
import SheetTypes.Text.Word
import SheetTypes.Toml
import SheetTypes.Toml.Parser
import SheetTypes.Toml.Printer
import SheetTypes.Toml.Section
import SheetTypes.Toml.Word
import SheetTypes.TypeTerm
import SheetTypes.TypeTerm.Printer
import SheetTypes.TypeTerm.Traversal
import SheetTypes.Unification
import SheetTypes.Unification.Units
import SheetTypes.UnitTerm
import SheetTypes.Variable
