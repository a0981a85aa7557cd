import TestConversion.Code.Calls
import TestConversion.Code.Node
import TestConversion.Code.Spelling
import TestConversion.Code.Unit
import TestConversion.Command.Basic
import TestConversion.Command.Conversion
import TestConversion.Command.Inspection
import TestConversion.Command.Result
import TestConversion.Command.Run
import TestConversion.Command.Setup
import TestConversion.Command.Usage
import TestConversion.Conversion.Converter
import TestConversion.Conversion.Fence
import TestConversion.Conversion.Generator
import TestConversion.Conversion.Language
import TestConversion.Conversion.OutputName
import TestConversion.Conversion.Prompt
import TestConversion.Files.FileSystem
import TestConversion.Files.Glob
import TestConversion.Files.Ignore
import TestConversion.Files.JavaFiles
import TestConversion.Files.Path
import TestConversion.Java.Admission
import TestConversion.Java.Grammar
import TestConversion.Java.Lexeme
import TestConversion.Java.Lowering
import TestConversion.Java.Problem
import TestConversion.Java.Source
import TestConversion.Json.Basic
import TestConversion.Json.Printer
import TestConversion.Json.Reader
import TestConversion.Main
import TestConversion.Metadata.Basic
import TestConversion.Metadata.Extract
import TestConversion.Metadata.File
import TestConversion.Metadata.Import
import TestConversion.Metadata.Record
import TestConversion.Model.Backend
import TestConversion.Model.Client
import TestConversion.Model.Failure
import TestConversion.Model.Reply
import TestConversion.Model.Request
import TestConversion.Number.Binary
import TestConversion.Number.Decimal
import TestConversion.Number.Shortest
import TestConversion.Proofs.Code.Actions
import TestConversion.Proofs.Code.Discovery
import TestConversion.Report.Basic
import TestConversion.Report.Format
import TestConversion.Report.Record
import TestConversion.Report.Summary
import TestConversion.Settings.Basic
import TestConversion.Settings.Document
import TestConversion.Settings.Warnings
import TestConversion.Syntax.Automaton
import TestConversion.Syntax.Clash
import TestConversion.Syntax.Derivation
import TestConversion.Syntax.Grammar
import TestConversion.Syntax.Item
import TestConversion.Syntax.Merging
import TestConversion.Syntax.Pattern
import TestConversion.Syntax.Production
import TestConversion.Syntax.Reading
import TestConversion.Syntax.Repair
import TestConversion.Syntax.Settling
import TestConversion.Syntax.State
import TestConversion.Syntax.Token
import TestConversion.Syntax.Tree
import TestConversion.Text.Blank
import TestConversion.Text.Case
import TestConversion.Text.CaseTable
import TestConversion.Text.CharRange
import TestConversion.Text.Escapes
import TestConversion.Text.Identifier
import TestConversion.Text.IdentifierTable
import TestConversion.Text.Quoted
import TestConversion.Text.Segments
import TestConversion.Text.Slice
import TestConversion.Text.SourceText
import TestConversion.Text.UnseenTable
import TestConversion.Toml.Reader
import TestConversion.Toml.Scalar
import TestConversion.Toml.Table
import TestConversion.Toml.Text
import TestConversion.Proofs.Code.Occurrences
import TestConversion.Proofs.Java.Forms
import TestConversion.Proofs.Java.Order
import TestConversion.Proofs.Java.Recorded
import TestConversion.Proofs.Json.ReadBack
import TestConversion.Proofs.Report.Decoding
import TestConversion.Proofs.Files.Paths
import TestConversion.Proofs.Java.Admission
import TestConversion.Proofs.Files.Changes
import TestConversion.Proofs.Files.Collected
import TestConversion.Proofs.Conversion.OutputName
import TestConversion.Proofs.Text.Blanks
import TestConversion.Proofs.Conversion.Fences
import TestConversion.Proofs.Conversion.OutputPlace
import TestConversion.Proofs.Conversion.Saving
import TestConversion.Proofs.Conversion.Clashes
import TestConversion.Proofs.Conversion.Batch
import TestConversion.Proofs.Command.Batches
import TestConversion.Proofs.Model.Answers
import TestConversion.Proofs.Model.Conversations
import TestConversion.Proofs.Command.Keys
import TestConversion.Proofs.Command.Agreement
import TestConversion.Proofs.Conversion.Asking
import TestConversion.Proofs.Json.Documents
import TestConversion.Proofs.Model.Completions
import TestConversion.Proofs.Conversion.Usable
import TestConversion.Proofs.Text.Sequences
import TestConversion.Proofs.Json.Sequences
import TestConversion.Proofs.Report.Texts
import TestConversion.Proofs.Command.Written
import TestConversion.Proofs.Syntax.Fields
import TestConversion.Proofs.Java.Outline
import TestConversion.Proofs.Java.Layout
import TestConversion.Proofs.Java.Listing
import TestConversion.Proofs.Command.Secrets
import TestConversion.Proofs.Code.Spelling
import TestConversion.Proofs.Text.Slices
import TestConversion.Proofs.Java.Arguments
import TestConversion.Proofs.Java.Paths
import TestConversion.Proofs.Java.Receivers
import TestConversion.Proofs.Java.SourceTexts
import TestConversion.Proofs.Java.Chains
import TestConversion.Proofs.Java.Displays
import TestConversion.Proofs.Metadata.Imports
import TestConversion.Proofs.Java.Offenders
import TestConversion.Proofs.Java.Edits
import TestConversion.Proofs.Report.Rows
import TestConversion.Proofs.Code.OperatorTrees
import TestConversion.Proofs.Code.Sameness
import TestConversion.Proofs.Command.Precedence
