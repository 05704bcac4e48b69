import SwiftStyle.Main
import SwiftStyle.Proofs.CommandLine.ConfigSearch
import SwiftStyle.Proofs.Glob.Exclusion
import SwiftStyle.Proofs.Linter.Linting
import SwiftStyle.Proofs.Linter.ReportOrder
import SwiftStyle.Proofs.Linter.Reported
import SwiftStyle.Proofs.Linter.Sources
import SwiftStyle.Proofs.Registry.Configured
import SwiftStyle.Proofs.Registry.Warnings
import SwiftStyle.Proofs.Rule.Sizes
import SwiftStyle.Proofs.Rules.Agreement
import SwiftStyle.Proofs.Rules.EmptyCount
import SwiftStyle.Proofs.Rules.LineLength
import SwiftStyle.Proofs.Rules.LongLines
import SwiftStyle.Proofs.Rules.Order
import SwiftStyle.Proofs.Rules.ShorthandSearch
import SwiftStyle.Proofs.Rules.StatementGaps
import SwiftStyle.Proofs.Source.InsideCharacters
import SwiftStyle.Proofs.Source.Saving
import SwiftStyle.Proofs.Token.BlockComment
import SwiftStyle.Proofs.Token.Coverage
import SwiftStyle.Proofs.Token.ScannerRun
import SwiftStyle.Proofs.Token.StringLiteral
import SwiftStyle.Sample.Rules
import SwiftStyle.Sample.Tokenizers
import SwiftStyle.Proofs.Source.PositionOrder
