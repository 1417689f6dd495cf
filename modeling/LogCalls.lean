import LogCalls.Action
import LogCalls.Argument
import LogCalls.Atom
import LogCalls.Batch
import LogCalls.CallSite
import LogCalls.Command.Actions
import LogCalls.Command.Convert
import LogCalls.Command.Directory
import LogCalls.Command.Report
import LogCalls.Command.Run
import LogCalls.Command.Words
import LogCalls.Conversion
import LogCalls.Decimal.Arithmetic
import LogCalls.Decimal.Binary64
import LogCalls.Decimal.Fixed
import LogCalls.Decimal.Layout
import LogCalls.Decimal.Power
import LogCalls.Decimal.Shortest
import LogCalls.Display.Balance
import LogCalls.Display.Markup
import LogCalls.Display.Table
import LogCalls.Edit
import LogCalls.Fault
import LogCalls.Issue
import LogCalls.Job
import LogCalls.Journal
import LogCalls.LogFile
import LogCalls.Main
import LogCalls.Mention
import LogCalls.Message
import LogCalls.Number
import LogCalls.Numeral
import LogCalls.Path
import LogCalls.Pattern.Basic
import LogCalls.Pattern.CharSet
import LogCalls.Pattern.Escape
import LogCalls.Pattern.Reader
import LogCalls.Pattern.Search
import LogCalls.Pattern.Token
import LogCalls.Position
import LogCalls.Proofs.Argument.Passing
import LogCalls.Proofs.Argument.Reading
import LogCalls.Proofs.Outcome
import LogCalls.Session
import LogCalls.Settings.Check
import LogCalls.Settings.Load
import LogCalls.Settings.Merge
import LogCalls.Settings.Moment
import LogCalls.Settings.Records
import LogCalls.Settings.Spec
import LogCalls.Settings.Value
import LogCalls.Sources
import LogCalls.Style
import LogCalls.Summary
import LogCalls.Template.Arithmetic
import LogCalls.Template.Call
import LogCalls.Template.Check
import LogCalls.Template.Compare
import LogCalls.Template.Evaluation
import LogCalls.Template.Fill
import LogCalls.Template.Filter
import LogCalls.Template.Filter.Basic
import LogCalls.Template.Filter.OfForm
import LogCalls.Template.Filter.OfNumber
import LogCalls.Template.Filter.OfRow
import LogCalls.Template.Filter.OfText
import LogCalls.Template.Format
import LogCalls.Template.Iteration
import LogCalls.Template.Lookup
import LogCalls.Template.Machine
import LogCalls.Template.Methods
import LogCalls.Template.Names
import LogCalls.Template.Parameters
import LogCalls.Template.Reader
import LogCalls.Template.Run
import LogCalls.Template.Show
import LogCalls.Template.Sorting
import LogCalls.Template.Test
import LogCalls.Template.TextMethods
import LogCalls.Template.Token
import LogCalls.Template.Tree
import LogCalls.Template.Value
import LogCalls.Template.Variables
import LogCalls.Text.Base64
import LogCalls.Text.Blank
import LogCalls.Text.Capital
import LogCalls.Text.Case
import LogCalls.Text.Cut
import LogCalls.Text.Digit
import LogCalls.Text.Identifier
import LogCalls.Text.Letter
import LogCalls.Text.Lines
import LogCalls.Text.Pad
import LogCalls.Text.Printable
import LogCalls.Text.Quoted
import LogCalls.Text.Search
import LogCalls.Text.Small
import LogCalls.Text.Surrogate
import LogCalls.Text.Tags
import LogCalls.Text.Twin
import LogCalls.Text.Utf8
import LogCalls.Text.Word
import LogCalls.Text.Wrap
import LogCalls.Tree
import LogCalls.Yaml.Alphabet
import LogCalls.Yaml.Block
import LogCalls.Yaml.Gap
import LogCalls.Yaml.Meaning
import LogCalls.Yaml.Node.Basic
import LogCalls.Yaml.Node.Reader
import LogCalls.Yaml.Plain
import LogCalls.Yaml.Quoted
import LogCalls.Yaml.Tag
import LogCalls.Yaml.Token.Basic
import LogCalls.Yaml.Token.Scan
import LogCalls.Proofs.Argument.Grammar
import LogCalls.Proofs.Argument.Printing
import LogCalls.Proofs.Edit.Splice
import LogCalls.Proofs.CallSite.Shape
import LogCalls.Proofs.Mention.Places
import LogCalls.Proofs.Conversion.Change
import LogCalls.Proofs.Conversion.Run
import LogCalls.Proofs.Conversion.ByActions
import LogCalls.Proofs.Text.Occurrences
import LogCalls.Proofs.Message.Filling
import LogCalls.Proofs.Pattern.Spelled
import LogCalls.Proofs.Mention.Appended
import LogCalls.Proofs.Conversion.Appended
import LogCalls.Proofs.Message.Writing
import LogCalls.Proofs.Conversion.Failure
import LogCalls.Proofs.Argument.Tokens
import LogCalls.Proofs.Decimal.Magnitude
import LogCalls.Proofs.Message.Rereading
import LogCalls.Proofs.Conversion.Complete
import LogCalls.Proofs.Job.Containment
import LogCalls.Proofs.Tree.Walk
import LogCalls.Proofs.Job.Effect
import LogCalls.Proofs.Path.Reading
import LogCalls.Proofs.Summary.Order
import LogCalls.Proofs.Pool.Interleaving
import LogCalls.Proofs.Tree.Proper
import LogCalls.Proofs.Sources.Below
import LogCalls.Proofs.Command.Directory
import LogCalls.Proofs.Number.Spelling
import LogCalls.Proofs.Number.IntegerLiteral
import LogCalls.Proofs.Argument.Items
import LogCalls.Proofs.Argument.Pieces
import LogCalls.Proofs.Argument.Layout
import LogCalls.Proofs.CallSite.Blanks
import LogCalls.Proofs.Conversion.Operands
import LogCalls.Proofs.Edit.Weaving
import LogCalls.Proofs.Position.Lines
import LogCalls.Proofs.Mention.Lines
import LogCalls.Proofs.CallSite.Offsets
import LogCalls.Proofs.Conversion.Loggers
import LogCalls.Proofs.Settings.Keyed
import LogCalls.Proofs.Settings.Merging
import LogCalls.Proofs.Tree.Rereading
import LogCalls.Proofs.Job.Writing
import LogCalls.Proofs.Action.Preferred
import LogCalls.Proofs.Position.Counting
import LogCalls.Proofs.Yaml.Raising
import LogCalls.Proofs.Settings.Dotted
import LogCalls.Proofs.Settings.Ungiven
import LogCalls.Proofs.Settings.Reporting
import LogCalls.Proofs.Argument.Prefixes
import LogCalls.Proofs.Action.Edits
import LogCalls.Proofs.Action.Shown
import LogCalls.Proofs.Number.Canonical
