import Seams.Grammar.Program
import Seams.Token
import Seams.Text.Quoted
import Seams.Text.Blank
import Seams.Fingerprint
import Seams.Reassembly
import Seams.Redirect.Registry
import Seams.Redirect.Names
import Seams.Grammar.Flaw
import Seams.Query.Vocabulary
import Seams.Query.Pattern
import Seams.Query.Search
import Seams.Query.Pool
import Seams.Script
import Seams.Redirect.Exits
import Seams.Redirect.Calls
import Seams.Redirect.Methods
import Seams.Pipeline
import Seams.Files.Tree
import Seams.Scope
import Seams.Settings.Toml
import Seams.Settings.Axis
import Seams.RewriteCache
import Seams.Loading
import Seams.Diff.Lines
import Seams.Diff.Compact
import Seams.CommandLine.Arguments
import Seams.CommandLine.Style
import Seams.CommandLine.Program
import Seams.Files.Difference
import Seams.Main
import Seams.Proofs.Coherence
import Seams.Proofs.Overlap
import Seams.Proofs.Precedence
import Seams.Proofs.TornWrites
import Seams.Proofs.Interception
import Seams.Proofs.Totality
import Seams.Proofs.Reuse
import Seams.Proofs.Locking
import Seams.Proofs.Reconciling
import Seams.Proofs.Interruptions
import Seams.Proofs.Transparency
import Seams.Proofs.Clashes
import Seams.Proofs.Leftovers
import Seams.Proofs.Spellings
import Seams.Proofs.Census
import Seams.Proofs.Tables
import Seams.Proofs.Reordering
import Seams.Proofs.Flaws
import Seams.Proofs.ExitSignal
import Seams.Proofs.Lines
import Seams.Proofs.DirectCalls
import Seams.Proofs.Warming
import Seams.Proofs.Partition
import Seams.Proofs.Generations
import Seams.Proofs.Failures
import Seams.Proofs.Lineup
import Seams.Proofs.Arrivals
import Seams.Proofs.NameSets
import Seams.Proofs.Accounts
import Seams.Proofs.Validation
import Seams.Proofs.Freezing
import Seams.Proofs.Status
import Seams.Proofs.Pooling
import Seams.Proofs.Gaps
import Seams.Proofs.Positions
