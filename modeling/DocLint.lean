import DocLint.Text.Strip
import DocLint.Text.Case
import DocLint.Text.Quoted
import DocLint.Text.Compose
import DocLint.Token
import DocLint.Token.Lexeme
import DocLint.Token.Scan
import DocLint.Grammar.Terminal
import DocLint.Literal
import DocLint.Grammar.Tree
import DocLint.Grammar.Formatted
import DocLint.Grammar.Rule
import DocLint.Grammar.Expression
import DocLint.Grammar.Parse
import DocLint.Grammar.Placement
import DocLint.Grammar.Accept
import DocLint.Text.Dedent
import DocLint.Exports
import DocLint.Definition
import DocLint.Outline.Read
import DocLint.Path
import DocLint.Publicity
import DocLint.Subject
import DocLint.Record
import DocLint.Rule
import DocLint.Mood
import DocLint.Violation
import DocLint.Encoding
import DocLint.FileTree
import DocLint.Ini
import DocLint.Toml.Document
import DocLint.Settings
import DocLint.CommandLine.Help
import DocLint.Config.Selection
import DocLint.Run
import DocLint.Main
import DocLint.Proofs.Outline.Pieces
import DocLint.Proofs.Outline.ReadBack
import DocLint.Proofs.Outline.Gathering
import DocLint.Proofs.Token.Rows
import DocLint.Proofs.Outline.LineOrder
import DocLint.Proofs.Outline.Nesting
import DocLint.Proofs.Outline.Termination
import DocLint.Proofs.Outline.Exhaustion
import DocLint.Proofs.Outline.Stated
import DocLint.Proofs.Config.History
import DocLint.Proofs.Config.Independence
import DocLint.Proofs.Config.Inheritance
import DocLint.Proofs.Config.Discovery
import DocLint.Proofs.Config.Precedence
import DocLint.Proofs.Config.Agreement
import DocLint.Proofs.Inspection
import DocLint.Proofs.Check.Completion
import DocLint.Proofs.Check.SwitchedOff
import DocLint.Proofs.Check.ReportOrder
import DocLint.Proofs.Check.Privacy
import DocLint.Proofs.Run
import DocLint.Proofs.Exports
import DocLint.Proofs.Outline.Display
import DocLint.Proofs.Outline.Decoration
import DocLint.Proofs.Outline.Annotation
import DocLint.Proofs.Check.Partition
import DocLint.Proofs.Check.Surroundings
import DocLint.Proofs.Check.Underline
import DocLint.Proofs.Check.DescribedArguments
import DocLint.Proofs.Check.MissingParameters
import DocLint.Proofs.Check.CodeList
import DocLint.Proofs.Check.PublicChain
import DocLint.Proofs.Check.PerSubject
import DocLint.Proofs.Check.BlankLines
import DocLint.Proofs.Config.Exclusive
import DocLint.Proofs.Check.Indentation
import DocLint.Proofs.Check.Suggestion
import DocLint.Proofs.Check.NumberedLines
import DocLint.Proofs.Config.CodeLists
import DocLint.Proofs.Config.Values
import DocLint.Proofs.Config.WholeNames
import DocLint.Proofs.Check.Respelt
import DocLint.Proofs.Check.RecasedSource
import DocLint.Proofs.Check.PrivateFolders
import DocLint.Proofs.Check.HeaderSuffix
import DocLint.Proofs.Config.Expansion
import DocLint.Proofs.Check.SuggestionOrder
import DocLint.Proofs.Outline.LogicalLines
