import Covenant.Articles
import Covenant.Calendar.Date
import Covenant.Calendar.DateToken
import Covenant.Calendar.Iso
import Covenant.Calendar.Pattern
import Covenant.Calendar.Stored
import Covenant.Calendar.Written
import Covenant.Case.Basic
import Covenant.Case.Clause
import Covenant.Case.Context
import Covenant.Case.Person
import Covenant.Collection.Basic
import Covenant.Collection.Registry
import Covenant.Collection.Wording
import Covenant.CommandLine.Arguments
import Covenant.CommandLine.Commands
import Covenant.CommandLine.Files
import Covenant.Condition.Basic
import Covenant.Condition.Comparison
import Covenant.Condition.Description
import Covenant.Condition.Evaluation
import Covenant.Condition.Graph
import Covenant.Condition.Operator
import Covenant.Condition.Rules
import Covenant.Console.Color
import Covenant.Console.Control
import Covenant.Console.Emoji
import Covenant.Console.EmojiTable
import Covenant.Console.Handler
import Covenant.Console.Markup
import Covenant.Console.Style
import Covenant.Context.Basic
import Covenant.Context.Operation
import Covenant.Diagnostics
import Covenant.Environment
import Covenant.Fault
import Covenant.Grammar
import Covenant.Main
import Covenant.MessageTemplate
import Covenant.Naming
import Covenant.Number.Binary64
import Covenant.Number.Decimal
import Covenant.Number.Reading
import Covenant.Number.Shortest
import Covenant.Proofs.Articles
import Covenant.Proofs.Case.Age
import Covenant.Proofs.Case.ClauseLibrary
import Covenant.Proofs.Case.Clean
import Covenant.Proofs.Case.CleanContext
import Covenant.Proofs.Case.CollectionCounts
import Covenant.Proofs.Case.Completion
import Covenant.Proofs.Case.Demands
import Covenant.Proofs.Case.DerivedNames
import Covenant.Proofs.Case.Layers
import Covenant.Proofs.Case.Person
import Covenant.Proofs.Collection.Clean
import Covenant.Proofs.Collection.Lookup
import Covenant.Proofs.Collection.Variables
import Covenant.Proofs.Collection.Written
import Covenant.Proofs.CommandLine.Loading
import Covenant.Proofs.Completion
import Covenant.Proofs.Condition.Equality
import Covenant.Proofs.Condition.Graph
import Covenant.Proofs.Condition.Order
import Covenant.Proofs.Condition.Reach
import Covenant.Proofs.Condition.Sharing
import Covenant.Proofs.Condition.Stored
import Covenant.Proofs.Condition.Value
import Covenant.Proofs.Console.Markup
import Covenant.Proofs.Context.Agreement
import Covenant.Proofs.Context.AliasClosure
import Covenant.Proofs.Context.Aliases
import Covenant.Proofs.Context.Frozen
import Covenant.Proofs.Context.History
import Covenant.Proofs.Context.Layering
import Covenant.Proofs.Context.Session
import Covenant.Proofs.Context.Stepwise
import Covenant.Proofs.Grammar
import Covenant.Proofs.Grammar.Minors
import Covenant.Proofs.Grammar.Precedence
import Covenant.Proofs.Grammar.Table
import Covenant.Proofs.Naming.Conventions
import Covenant.Proofs.Naming.Spellings
import Covenant.Proofs.Naming.Words
import Covenant.Proofs.Number.Decimal
import Covenant.Proofs.Number.LetterCase
import Covenant.Proofs.Number.Range
import Covenant.Proofs.Numbering.ArticleNumbers
import Covenant.Proofs.Numbering.Assembled
import Covenant.Proofs.Numbering.Contents
import Covenant.Proofs.Numbering.Continuation
import Covenant.Proofs.Numbering.Division
import Covenant.Proofs.Numbering.Marker
import Covenant.Proofs.Numbering.Tokens
import Covenant.Proofs.Outcome
import Covenant.Proofs.Regions
import Covenant.Proofs.Resolver
import Covenant.Proofs.Template.BlankLines
import Covenant.Proofs.Template.BlockScan
import Covenant.Proofs.Template.Bracket
import Covenant.Proofs.Template.Completion
import Covenant.Proofs.Template.ConditionalForest
import Covenant.Proofs.Template.ConditionalPairing
import Covenant.Proofs.Template.ConditionalTest
import Covenant.Proofs.Template.ConditionalTrace
import Covenant.Proofs.Template.Filled
import Covenant.Proofs.Template.Forest
import Covenant.Proofs.Template.Innermost
import Covenant.Proofs.Template.Inventory
import Covenant.Proofs.Template.LayerPass
import Covenant.Proofs.Template.LayerTags
import Covenant.Proofs.Template.Layers
import Covenant.Proofs.Template.LeftAlone
import Covenant.Proofs.Template.LoopBody
import Covenant.Proofs.Template.LoopForest
import Covenant.Proofs.Template.LoopGuard
import Covenant.Proofs.Template.LoopVariable
import Covenant.Proofs.Template.Markup
import Covenant.Proofs.Template.Nest
import Covenant.Proofs.Template.Nested
import Covenant.Proofs.Template.Pairing
import Covenant.Proofs.Template.Part
import Covenant.Proofs.Template.Pass
import Covenant.Proofs.Template.Placed
import Covenant.Proofs.Template.Progress
import Covenant.Proofs.Template.Report
import Covenant.Proofs.Template.Segment
import Covenant.Proofs.Template.Standing
import Covenant.Proofs.Template.Steady
import Covenant.Proofs.Template.Structural
import Covenant.Proofs.Template.TokenBlocks
import Covenant.Proofs.Template.TokenCase
import Covenant.Proofs.Template.TokenPasses
import Covenant.Proofs.Template.TokenTags
import Covenant.Proofs.Template.Tokenised
import Covenant.Proofs.Template.Trace
import Covenant.Proofs.Template.Untagged
import Covenant.Proofs.Template.WholeRuns
import Covenant.Proofs.Text.Blank
import Covenant.Proofs.Text.Case
import Covenant.Proofs.Text.Delimiter
import Covenant.Proofs.Text.Digits
import Covenant.Proofs.Text.Folded
import Covenant.Proofs.Text.Lines
import Covenant.Proofs.Text.Lower
import Covenant.Proofs.Text.Pieces
import Covenant.Proofs.Text.Upper
import Covenant.Proofs.Value.Members
import Covenant.Proofs.Value.Reader
import Covenant.Proofs.Word.Blocks
import Covenant.Proofs.Word.Body
import Covenant.Proofs.Word.Cut
import Covenant.Proofs.Word.Embedded
import Covenant.Proofs.Word.Kept
import Covenant.Proofs.Word.Lines
import Covenant.Proofs.Word.Marker
import Covenant.Proofs.Word.Passes
import Covenant.Proofs.Word.RegionNames
import Covenant.Proofs.Word.RoundTrip
import Covenant.Proofs.Word.SectionEnds
import Covenant.Proofs.Word.Tables
import Covenant.Proofs.Word.Written
import Covenant.Proofs.Wording.AccountNumber
import Covenant.Proofs.Wording.Amount
import Covenant.Proofs.Wording.Clean
import Covenant.Proofs.Wording.WrittenAmount
import Covenant.Resolver
import Covenant.Settings
import Covenant.Template.BlankLines
import Covenant.Template.Block
import Covenant.Template.Conditional
import Covenant.Template.Inventory
import Covenant.Template.Loop
import Covenant.Template.Nested
import Covenant.Template.Numbering
import Covenant.Template.Piece
import Covenant.Template.Placeholder
import Covenant.Text.Basic
import Covenant.Text.Blank
import Covenant.Text.Case
import Covenant.Text.CaseTable
import Covenant.Text.Digit
import Covenant.Text.Folded
import Covenant.Text.Group
import Covenant.Text.Printable
import Covenant.Text.Quoted
import Covenant.Value.Basic
import Covenant.Value.Reader
import Covenant.Value.Writer
import Covenant.Word.Body
import Covenant.Word.Description
import Covenant.Word.Document
import Covenant.Word.Grid
import Covenant.Word.Regions
import Covenant.Wording.Agreement
import Covenant.Wording.Amount
import Covenant.Wording.Calendar
import Covenant.Wording.Person
