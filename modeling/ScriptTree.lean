import ScriptTree.Cli
import ScriptTree.Cli.Command
import ScriptTree.Cli.Compile
import ScriptTree.Cli.Complete
import ScriptTree.Cli.Flag
import ScriptTree.Cli.Help
import ScriptTree.Cli.Reserved
import ScriptTree.Cli.Serve
import ScriptTree.Cli.Session
import ScriptTree.Compile
import ScriptTree.Compile.Trace
import ScriptTree.Disk
import ScriptTree.Duration
import ScriptTree.FileName
import ScriptTree.Identifier
import ScriptTree.Js.Check
import ScriptTree.Js.Encoding
import ScriptTree.Js.Expr
import ScriptTree.Js.Printer
import ScriptTree.Js.Term
import ScriptTree.Js.Term.Compact
import ScriptTree.Js.Term.Parser
import ScriptTree.Js.Term.Rename
import ScriptTree.Js.Term.Simplify
import ScriptTree.Js.Token
import ScriptTree.Js.Writer
import ScriptTree.Json.Term
import ScriptTree.Json.Value
import ScriptTree.Log
import ScriptTree.Main
import ScriptTree.Number
import ScriptTree.Number.Fixed
import ScriptTree.Number.Integer
import ScriptTree.Number.Layout
import ScriptTree.Number.Reader
import ScriptTree.Number.Shortest
import ScriptTree.Pipeline
import ScriptTree.Pipeline.Batch
import ScriptTree.Proofs.Cli.Attribution
import ScriptTree.Proofs.Cli.Given
import ScriptTree.Proofs.Cli.Output
import ScriptTree.Proofs.Cli.Results
import ScriptTree.Proofs.Compile.Builder
import ScriptTree.Proofs.Compile.Chain
import ScriptTree.Proofs.Compile.Depth
import ScriptTree.Proofs.Compile.Failure
import ScriptTree.Proofs.Compile.Folding
import ScriptTree.Proofs.Compile.Meaning
import ScriptTree.Proofs.Compile.Names
import ScriptTree.Proofs.Compile.Pairs
import ScriptTree.Proofs.Compile.Parameters
import ScriptTree.Proofs.Compile.Postorder
import ScriptTree.Proofs.Compile.Scope
import ScriptTree.Proofs.Compile.Size
import ScriptTree.Proofs.Compile.Totals
import ScriptTree.Proofs.FileName
import ScriptTree.Proofs.Identifier.Prefixed
import ScriptTree.Proofs.Identifier.Standard
import ScriptTree.Proofs.Identifier.Suffixed
import ScriptTree.Proofs.Js.Declaration
import ScriptTree.Proofs.Js.Encoding
import ScriptTree.Proofs.Js.Evaluation
import ScriptTree.Proofs.Js.Layout
import ScriptTree.Proofs.Js.Parentheses
import ScriptTree.Proofs.Js.Rebuild
import ScriptTree.Proofs.Js.RoundTrip
import ScriptTree.Proofs.Js.Scope
import ScriptTree.Proofs.Js.Syntax.Grammar
import ScriptTree.Proofs.Js.Syntax.Parser
import ScriptTree.Proofs.Js.Syntax.Spelling
import ScriptTree.Proofs.Js.Syntax.Terminal
import ScriptTree.Proofs.Js.Writer
import ScriptTree.Proofs.Json.Genuine
import ScriptTree.Proofs.Json.Grammar
import ScriptTree.Proofs.Json.Reader
import ScriptTree.Proofs.Json.Writer
import ScriptTree.Proofs.Number.Addition
import ScriptTree.Proofs.Number.Literal
import ScriptTree.Proofs.Number.Magnitude
import ScriptTree.Proofs.Number.Nearest
import ScriptTree.Proofs.Number.Numeral
import ScriptTree.Proofs.Number.Printed
import ScriptTree.Proofs.Number.Shortest
import ScriptTree.Proofs.Number.Unpacked
import ScriptTree.Proofs.Pipeline.Batch
import ScriptTree.Proofs.Pipeline.Evaluated
import ScriptTree.Proofs.Pipeline.Outcome
import ScriptTree.Proofs.Pipeline.Schedule
import ScriptTree.Proofs.Reserved.History
import ScriptTree.Proofs.Reserved.Memory
import ScriptTree.Proofs.Reserved.Parsed
import ScriptTree.Proofs.Reserved.Studio
import ScriptTree.Proofs.Reserved.Tables
import ScriptTree.Proofs.Script.Accepted
import ScriptTree.Proofs.Script.Agreement
import ScriptTree.Proofs.Script.Culprit
import ScriptTree.Proofs.Script.Decode
import ScriptTree.Proofs.Script.Detection
import ScriptTree.Proofs.Script.Form
import ScriptTree.Proofs.Script.Formats
import ScriptTree.Proofs.Script.Meaning
import ScriptTree.Proofs.Script.Position
import ScriptTree.Proofs.Script.Scope
import ScriptTree.Proofs.Script.Verdict
import ScriptTree.Proofs.Script.Violation
import ScriptTree.Proofs.Script.Written
import ScriptTree.Proofs.Server.Success
import ScriptTree.Proofs.Settings.Precedence
import ScriptTree.Proofs.Settings.Search
import ScriptTree.Proofs.Starlark.Pool
import ScriptTree.Proofs.Text.Bytes
import ScriptTree.Proofs.Text.Casing
import ScriptTree.Proofs.Text.Parentheses
import ScriptTree.Proofs.Text.Quoted
import ScriptTree.Proofs.Watch.Delivery
import ScriptTree.Proofs.Yaml.Compose
import ScriptTree.Proofs.Yaml.Cursor
import ScriptTree.Proofs.Yaml.Data
import ScriptTree.Proofs.Yaml.Fetch
import ScriptTree.Proofs.Yaml.Numeric
import ScriptTree.Proofs.Yaml.Outline
import ScriptTree.Proofs.Yaml.Shared
import ScriptTree.Proofs.Yaml.Source
import ScriptTree.Proofs.Yaml.Stream
import ScriptTree.Proofs.Yaml.Words
import ScriptTree.Render
import ScriptTree.Render.Mode
import ScriptTree.Render.Table
import ScriptTree.Reserved.Catalogue
import ScriptTree.Reserved.Dialect
import ScriptTree.Reserved.Edition
import ScriptTree.Reserved.History
import ScriptTree.Reserved.Memory
import ScriptTree.Reserved.Workshop
import ScriptTree.Script.Decode
import ScriptTree.Script.Evaluate
import ScriptTree.Script.Node
import ScriptTree.Script.Source
import ScriptTree.Server
import ScriptTree.Server.Address
import ScriptTree.Server.Request
import ScriptTree.Settings
import ScriptTree.Settings.Decode
import ScriptTree.Settings.Layer
import ScriptTree.Settings.Load
import ScriptTree.Starlark.Arguments
import ScriptTree.Starlark.Assembler
import ScriptTree.Starlark.Builtin
import ScriptTree.Starlark.Code
import ScriptTree.Starlark.Display
import ScriptTree.Starlark.Expr
import ScriptTree.Starlark.Iterator
import ScriptTree.Starlark.Machine
import ScriptTree.Starlark.Method
import ScriptTree.Starlark.Method.Dict
import ScriptTree.Starlark.Method.List
import ScriptTree.Starlark.Method.Text
import ScriptTree.Starlark.Operator
import ScriptTree.Starlark.Order
import ScriptTree.Starlark.Parser
import ScriptTree.Starlark.Pool
import ScriptTree.Starlark.Program
import ScriptTree.Starlark.Scope
import ScriptTree.Starlark.Sort
import ScriptTree.Starlark.Spelling
import ScriptTree.Starlark.Sum
import ScriptTree.Starlark.Template
import ScriptTree.Starlark.Token
import ScriptTree.Starlark.Token.Lexer
import ScriptTree.Starlark.Token.Literal
import ScriptTree.Starlark.Value
import ScriptTree.Text.Base64
import ScriptTree.Text.ByteString
import ScriptTree.Text.ByteString.Search
import ScriptTree.Text.Bytes
import ScriptTree.Text.Casing
import ScriptTree.Text.CharClass
import ScriptTree.Text.Distance
import ScriptTree.Text.Grapheme
import ScriptTree.Text.IdentifierChar
import ScriptTree.Text.Letter
import ScriptTree.Text.Lines
import ScriptTree.Text.Printable
import ScriptTree.Text.Quoted
import ScriptTree.Text.Terminal
import ScriptTree.Text.Width
import ScriptTree.Watch
import ScriptTree.Yaml.Cursor
import ScriptTree.Yaml.Node
import ScriptTree.Yaml.Scalar
import ScriptTree.Yaml.Source
import ScriptTree.Yaml.Timestamp
import ScriptTree.Yaml.Token
import ScriptTree.Yaml.Token.Lexer
import ScriptTree.Yaml.Token.Scalar
import ScriptTree.Yaml.Value
