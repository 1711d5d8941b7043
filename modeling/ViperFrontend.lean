import ViperFrontend.Main
import ViperFrontend.Proofs.Ast.Visits
import ViperFrontend.Proofs.Diagnostic.Frame
import ViperFrontend.Proofs.Grammar.RoundTrip.Program
import ViperFrontend.Proofs.Grammar.Soundness
import ViperFrontend.Proofs.Parser.Adoption
import ViperFrontend.Proofs.Parser.Appending
import ViperFrontend.Proofs.Parser.Braces
import ViperFrontend.Proofs.Parser.Climbing
import ViperFrontend.Proofs.Parser.Concatenation
import ViperFrontend.Proofs.Parser.Construction
import ViperFrontend.Proofs.Parser.Dangling
import ViperFrontend.Proofs.Parser.Depth
import ViperFrontend.Proofs.Parser.Kinds
import ViperFrontend.Proofs.Parser.Lines
import ViperFrontend.Proofs.Parser.MissingClosers
import ViperFrontend.Proofs.Parser.Nesting
import ViperFrontend.Proofs.Parser.Online
import ViperFrontend.Proofs.Parser.Order
import ViperFrontend.Proofs.Parser.Skipping
import ViperFrontend.Proofs.Parser.SourceOrder
import ViperFrontend.Proofs.Parser.Strays
import ViperFrontend.Proofs.Token.Factoring
import ViperFrontend.Proofs.Token.LineBreaks
import ViperFrontend.Proofs.Token.MaximalMunch
import ViperFrontend.Proofs.Token.Schedule
import ViperFrontend.Proofs.Token.Separated
