import Shading.Main
import Shading.Viewer.Session
import Shading.Proofs.Grammar.Fidelity
import Shading.Proofs.Grammar.RoundTrip
import Shading.Proofs.Lexer.Tokens
import Shading.Proofs.Trail
import Shading.Proofs.Grammar.Limits
import Shading.Proofs.Grammar.Program
import Shading.Proofs.Blame
import Shading.Proofs.Grammar.Fairness
import Shading.Proofs.Grammar.Outcome
import Shading.Proofs.Laziness
import Shading.Proofs.Errors
import Shading.Proofs.Grammar.Extension
import Shading.Proofs.Shortage
import Shading.Proofs.Grammar.Completion
import Shading.Proofs.ViablePrefix
import Shading.Proofs.Grammar.Relocation
import Shading.Proofs.Grammar.Displacement
import Shading.Proofs.Grammar.Sequencing
import Shading.Proofs.Lexer.Relocation
import Shading.Proofs.Lexer.Seam
import Shading.Proofs.Composition
import Shading.Proofs.Requests
import Shading.Proofs.Grammar.Segments
import Shading.Proofs.Grammar.Voids
import Shading.Proofs.Tree.Determination
import Shading.Proofs.Tree.Addresses
import Shading.Proofs.Lexer.Calls
import Shading.Proofs.Lexer.Positions
import Shading.Proofs.Viewer.Consistency
import Shading.Proofs.CommandLine.Modes
import Shading.Proofs.CommandLine.Verbosity
import Shading.Proofs.Lexer.Addressing
import Shading.Proofs.Viewer.Scrolling
import Shading.Proofs.Viewer.Highlighting
import Shading.Proofs.Viewer.RowSplitting
import Shading.Proofs.Lexer.Cut
import Shading.Proofs.Formatting
import Shading.Proofs.Course
import Shading.Proofs.Grammar.Respacing
import Shading.Proofs.Grammar.Separators
import Shading.Proofs.RepeatedSeparators
import Shading.Proofs.CommandLine.ArgumentOrder
import Shading.Proofs.Absorption
import Shading.Proofs.CommandLine.Tracing
import Shading.Proofs.Progress
import Shading.Proofs.Bookkeeping
import Shading.Proofs.Grammar.Follow
