import ProofScript.Token.Scan
import ProofScript.Node.Display
import ProofScript.Node.Walk
import ProofScript.Grammar.Build
import ProofScript.Grammar.Type
import ProofScript.Grammar.Script
import ProofScript.Node.Policy
import ProofScript.Object.Immutability
import ProofScript.Object.Record
import ProofScript.Script.Obligation
import ProofScript.Code.Template
import ProofScript.Code.Fresh
import ProofScript.Path
import ProofScript.Text.Escape
import ProofScript.Code.Emit
import ProofScript.Program
import ProofScript.Settings.Load
import ProofScript.CommandLine
import ProofScript.Shell.Run
import ProofScript.Main
import ProofScript.Proofs.Grammar.Derivation
import ProofScript.Proofs.Grammar.Soundness
import ProofScript.Proofs.Grammar.Completeness
import ProofScript.Proofs.Node.Everywhere
import ProofScript.Proofs.Node.WellFormed
import ProofScript.Proofs.Grammar.WellFormed
import ProofScript.Proofs.Analyses
import ProofScript.Proofs.Node.Slots
import ProofScript.Proofs.Node.Scoping
import ProofScript.Proofs.Code.Building
import ProofScript.Proofs.Code.Checking
import ProofScript.Proofs.Program.Compiling
import ProofScript.Proofs.Program.Running
import ProofScript.Proofs.Printing.Blocks
import ProofScript.Proofs.Printing.RoundTrip
import ProofScript.Proofs.Node.Occurrences
import ProofScript.Proofs.Object.Immutability
import ProofScript.Proofs.Object.Gathering
import ProofScript.Proofs.Script.Preceding
import ProofScript.Proofs.Object.Constructors
import ProofScript.Proofs.Grammar.Comparison
import ProofScript.Proofs.Grammar.Lockstep
import ProofScript.Proofs.Token.Scans
import ProofScript.Proofs.Token.Layout
import ProofScript.Proofs.Grammar.Texts
import ProofScript.Proofs.Script.Modes
import ProofScript.Proofs.Dialect.DafnyTerms
import ProofScript.Proofs.Dialect.RosetteTerms
import ProofScript.Proofs.Code.Reserved
import ProofScript.Proofs.Code.Declarations
import ProofScript.Proofs.Code.Hygiene
import ProofScript.Proofs.Dialect.Hygiene
import ProofScript.Proofs.Code.History
import ProofScript.Proofs.Printing.Tokens
import ProofScript.Proofs.Token.Coverage
import ProofScript.Proofs.Grammar.Identities
import ProofScript.Proofs.Dialect.Agreement
import ProofScript.Proofs.Node.Positions
import ProofScript.Proofs.Script.Hints
import ProofScript.Proofs.Object.Monotone
import ProofScript.Proofs.Grammar.Spans
import ProofScript.Proofs.Grammar.Faults
import ProofScript.Proofs.NameMap
import ProofScript.Proofs.Script.Conjunctions
import ProofScript.Proofs.Script.Defaults
import ProofScript.Proofs.Dialect.MethodLemmas
import ProofScript.Proofs.Dialect.Verbatim
import ProofScript.Proofs.Script.Rejection
import ProofScript.Proofs.Node.Calls
import ProofScript.Proofs.Code.Threading
import ProofScript.Proofs.Code.Substitution
import ProofScript.Proofs.Code.Failures
import ProofScript.Proofs.Dialect.Invariants
import ProofScript.Proofs.Code.Attempts
import ProofScript.Proofs.Code.TemplateFiles
import ProofScript.Proofs.Printing.Literals
import ProofScript.Proofs.Grammar.Formals
import ProofScript.Proofs.Grammar.Progress
import ProofScript.Proofs.Script.Directives
import ProofScript.Proofs.Session.Runs
import ProofScript.Proofs.Verifier
import ProofScript.Proofs.Settings
import ProofScript.Proofs.Text.Bytes
import ProofScript.Proofs.Token.Verbatim
import ProofScript.Proofs.Code.Collisions
import ProofScript.Proofs.Dialect.Literals
import ProofScript.Proofs.Dialect.SeedLiterals
