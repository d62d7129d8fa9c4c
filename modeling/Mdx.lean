import Mdx.Compiler.File
import Mdx.Config.Load
import Mdx.Console.Basic
import Mdx.Element.Fragment
import Mdx.Element.Span
import Mdx.Extended.Basic
import Mdx.Extended.Autolink
import Mdx.Fault.Failure
import Mdx.Generic.Basic
import Mdx.Json.Reader
import Mdx.Json.Writer
import Mdx.Log.Basic
import Mdx.Markdown.Document
import Mdx.Markup.Basic
import Mdx.Module.Basic
import Mdx.Node.Serial
import Mdx.Node.Vocabulary
import Mdx.Node.Walk
import Mdx.Proofs.Element.Tag
import Mdx.Script.Statement
import Mdx.Text.Case
import Mdx.Text.Punctuation
import Mdx.Toml.Document
import Mdx.Transform.Edit
import Mdx.Transform.Plugin
import Mdx.Transform.Resolve
import Mdx.Transform.Run
import Mdx.Workspace.Basic
import Mdx.Written.Stage
import Mdx.Proofs.Element.Tokens
import Mdx.Proofs.Element.Grammar
import Mdx.Proofs.Element.Span
import Mdx.Proofs.Extended.Segment
import Mdx.Proofs.Element.Reparse
import Mdx.Proofs.Extended.Coverage
import Mdx.Proofs.Extended.Element
import Mdx.Proofs.Extended.Additive
import Mdx.Proofs.Markup.Mapping
import Mdx.Proofs.Generic.Regular
import Mdx.Proofs.Extended.Regular
import Mdx.Proofs.Compiler.Progress
import Mdx.Proofs.Module.Expression
import Mdx.Proofs.Element.Spelling
import Mdx.Proofs.Module.Mirror
import Mdx.Proofs.Module.Balance
import Mdx.Proofs.Markup.Derivation
import Mdx.Proofs.Markup.Payload
import Mdx.Proofs.Element.Lossless
import Mdx.Proofs.Extended.Exact
import Mdx.Proofs.Module.Layout
import Mdx.Proofs.Transform.Sequence
import Mdx.Proofs.Generic.Located
import Mdx.Proofs.Extended.Located
import Mdx.Proofs.Element.Visible
import Mdx.Proofs.Markdown.Paragraph
import Mdx.Proofs.Markdown.RawTag
import Mdx.Proofs.Element.Unmatched
import Mdx.Proofs.Markdown.Reading
import Mdx.Proofs.Extended.Unbalanced
import Mdx.Proofs.Config.Overrides
import Mdx.Proofs.Trace.Nesting
import Mdx.Proofs.Transform.Registration
import Mdx.Proofs.Compiler.Messages
import Mdx.Proofs.Generic.Shape
import Mdx.Proofs.Script.LineEnding
import Mdx.Proofs.Extended.Shape
import Mdx.Proofs.Extended.Aligned
import Mdx.Proofs.Extended.LineEnding
import Mdx.Proofs.Node.Serial
import Mdx.Proofs.Script.Balanced
import Mdx.Proofs.Trace.Requests
import Mdx.Proofs.Extended.Unplaced
import Mdx.Proofs.Markup.Unplaced
import Mdx.Proofs.Module.Unplaced
import Mdx.Proofs.Written.Unplaced
import Mdx.Proofs.Script.Tiling
import Mdx.Proofs.Script.Matching
import Mdx.Proofs.Script.Rescan
import Mdx.Proofs.Extended.Walk
import Mdx.Proofs.Extended.Agreement
import Mdx.Proofs.Module.Template
import Mdx.Proofs.Markup.Malformed
import Mdx.Proofs.Module.Hoisting
import Mdx.Proofs.Module.Rejection
import Mdx.Proofs.Node.Course
import Mdx.Proofs.Node.Preorder
import Mdx.Proofs.Transform.ImageLink
import Mdx.Proofs.Generic.RunningText
import Mdx.Proofs.Extended.Frame
import Mdx.Proofs.Markdown.RawBlock
import Mdx.Proofs.Markup.Structure
import Mdx.Proofs.Element.Start
import Mdx.Proofs.Extended.Advance
import Mdx.Proofs.Markdown.RawStart
import Mdx.Proofs.Generic.Nesting
import Mdx.Proofs.Node.Growth
import Mdx.Proofs.Script.Window
