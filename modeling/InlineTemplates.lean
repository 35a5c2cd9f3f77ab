import InlineTemplates.Compile
import InlineTemplates.Config.Read
import InlineTemplates.Setup
import InlineTemplates.Proofs.Untouched
import InlineTemplates.Proofs.Serving
import InlineTemplates.Proofs.Redeclaration
import InlineTemplates.Proofs.Reassignment
import InlineTemplates.Proofs.Rerun
import InlineTemplates.Proofs.Forms
import InlineTemplates.Proofs.Printing.Expression
import InlineTemplates.Proofs.Printing.Node
import InlineTemplates.Proofs.InPlace
import InlineTemplates.Proofs.Printing.SameText
import InlineTemplates.Proofs.ReadBack
import InlineTemplates.Proofs.Tracking
import InlineTemplates.Proofs.Faces
import InlineTemplates.Proofs.Stateless
import InlineTemplates.Proofs.ItemOrder
import InlineTemplates.Proofs.NoImport
import InlineTemplates.Proofs.LocalName
import InlineTemplates.Proofs.TwoPasses
import InlineTemplates.Proofs.SplitTargets
import InlineTemplates.Proofs.InTurn
import InlineTemplates.Proofs.Failures
import InlineTemplates.Proofs.Erasure
import InlineTemplates.Proofs.Reading
import InlineTemplates.Proofs.ErrorPlace
import InlineTemplates.Proofs.Printing.Comments
import InlineTemplates.Proofs.Printing.Edges
import InlineTemplates.Proofs.Printing.Spelled
import InlineTemplates.Proofs.Printing.Call
import InlineTemplates.Proofs.CommentsKept
import InlineTemplates.Proofs.ParseRuns
import InlineTemplates.Proofs.SourceEnd
import InlineTemplates.Proofs.OpeningParen
import InlineTemplates.Proofs.Alone
import InlineTemplates.Proofs.WholeCode
import InlineTemplates.Proofs.ImportScan
import InlineTemplates.Proofs.SignatureNames
import InlineTemplates.Proofs.OperandRules
import InlineTemplates.Proofs.CommaFree
import InlineTemplates.Proofs.OpeningCall
import InlineTemplates.Proofs.OneArgument
import InlineTemplates.Proofs.FirstOffender
import InlineTemplates.Proofs.OwnSpans
import InlineTemplates.Proofs.Data.Operand
import InlineTemplates.Proofs.Data.Lists
import InlineTemplates.Proofs.Data.Reading
import InlineTemplates.Proofs.Data.Printing
import InlineTemplates.Proofs.Data.Filling
import InlineTemplates.Proofs.Host.Variables
import InlineTemplates.Proofs.Host.Items
import InlineTemplates.Proofs.Host.Printing
import InlineTemplates.Proofs.Host.Run
import InlineTemplates.Proofs.Host.Argument
import InlineTemplates.Proofs.Host.Reading
import InlineTemplates.Proofs.HostedCode
import InlineTemplates.Proofs.Places
import InlineTemplates.Proofs.Config.Spelling
import InlineTemplates.Proofs.Config.Takes
import InlineTemplates.Proofs.Config.Strings
import InlineTemplates.Proofs.Config.Objects
import InlineTemplates.Proofs.Config.Reading
import InlineTemplates.Proofs.Config.Targets
import InlineTemplates.Proofs.Config.Probes
import InlineTemplates.Proofs.Config.Slots
import InlineTemplates.Proofs.Config.EmptyExport
import InlineTemplates.Proofs.ImportedTargets
import InlineTemplates.Proofs.Lexing.Blanks
import InlineTemplates.Proofs.Lexing.Tokens
import InlineTemplates.Proofs.Lexing.Words
import InlineTemplates.Proofs.Lexing.Steps
import InlineTemplates.Proofs.Lexing.Items
import InlineTemplates.Proofs.Lexing.Progress
import InlineTemplates.Proofs.Lexing.TokenSizes
import InlineTemplates.Proofs.Lexing.Onward
import InlineTemplates.Proofs.ImportText.Syntax
import InlineTemplates.Proofs.ImportText.Names
import InlineTemplates.Proofs.ImportText.Reading
import InlineTemplates.Proofs.ImportText.Printing
import InlineTemplates.Proofs.ImportText.Refusing
import InlineTemplates.Proofs.ImportText.Quoting
import InlineTemplates.Proofs.ImportText.Origin
import InlineTemplates.Proofs.ImportText.RequiredSyntax
