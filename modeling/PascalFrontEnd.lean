import PascalFrontEnd.Grammar
import PascalFrontEnd.Main
import PascalFrontEnd.Tree.Same
import PascalFrontEnd.Tree.Walk
import PascalFrontEnd.Proofs.Session.Outcome
import PascalFrontEnd.Proofs.Parse.Recognition
import PascalFrontEnd.Proofs.Run.LazyLexing
import PascalFrontEnd.Proofs.Run.OnePhrase
import PascalFrontEnd.Proofs.Run.RoundTrip
import PascalFrontEnd.Proofs.Token.Coverage
import PascalFrontEnd.Proofs.Token.Payload
import PascalFrontEnd.Proofs.Run.ParsedTree
import PascalFrontEnd.Proofs.Parse.Demand
import PascalFrontEnd.Proofs.Parse.DemandRules
import PascalFrontEnd.Proofs.Run.ErrorPlace
import PascalFrontEnd.Proofs.Run.KindsAlone
import PascalFrontEnd.Proofs.Run.AnyLayout
import PascalFrontEnd.Proofs.Run.AnyCase
import PascalFrontEnd.Proofs.Grammar.Marked
import PascalFrontEnd.Proofs.Parse.Precedence
import PascalFrontEnd.Proofs.Tree.Mentions
import PascalFrontEnd.Proofs.Run.Conservation
import PascalFrontEnd.Proofs.Grammar.Compounds
import PascalFrontEnd.Proofs.Parse.FlatStatements
import PascalFrontEnd.Proofs.Run.StatementLists
import PascalFrontEnd.Proofs.Token.Legible
import PascalFrontEnd.Proofs.Tree.Legible
import PascalFrontEnd.Proofs.Run.FaithfulText
import PascalFrontEnd.Proofs.Token.MaximalMunch
import PascalFrontEnd.Proofs.Token.Calls
import PascalFrontEnd.Proofs.Token.Joining
import PascalFrontEnd.Proofs.Run.BothModes
import PascalFrontEnd.Proofs.Run.Lookahead
import PascalFrontEnd.Proofs.Token.Numbers
import PascalFrontEnd.Proofs.Run.IntegerLiterals
import PascalFrontEnd.Proofs.Tree.Sameness
import PascalFrontEnd.Proofs.Run.SameTrees
import PascalFrontEnd.Proofs.Tree.Counting
import PascalFrontEnd.Proofs.Run.NodeCount
import PascalFrontEnd.Proofs.Number.Nearest
import PascalFrontEnd.Proofs.Token.Reals
import PascalFrontEnd.Proofs.Run.RealLiterals
import PascalFrontEnd.Proofs.Tree.Printing
import PascalFrontEnd.Proofs.Tree.Scopes
import PascalFrontEnd.Proofs.Session.Recording
import PascalFrontEnd.Proofs.Parse.Recording
import PascalFrontEnd.Proofs.Run.MirroredRun
import PascalFrontEnd.Proofs.Command.Transparency
