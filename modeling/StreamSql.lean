import StreamSql.Compile
import StreamSql.Json.Plan
import StreamSql.Json.Text
import StreamSql.Proofs.Aggregation.Calls
import StreamSql.Proofs.Aggregation.Columns
import StreamSql.Proofs.Analysis
import StreamSql.Proofs.Analysis.Resolution
import StreamSql.Proofs.Analysis.Respelling
import StreamSql.Proofs.Analysis.Star
import StreamSql.Proofs.Catalog
import StreamSql.Proofs.Compile
import StreamSql.Proofs.Double
import StreamSql.Proofs.Expr.Canonical
import StreamSql.Proofs.Expr.Constants
import StreamSql.Proofs.Expr.Failures
import StreamSql.Proofs.Expr.Folding
import StreamSql.Proofs.Expr.Meaning
import StreamSql.Proofs.Expr.Parts
import StreamSql.Proofs.Expr.Reduced
import StreamSql.Proofs.Expr.Replace
import StreamSql.Proofs.Expr.Respelling
import StreamSql.Proofs.Expr.Same
import StreamSql.Proofs.Expr.Spelling
import StreamSql.Proofs.Expr.Traversal
import StreamSql.Proofs.Expr.Undefined
import StreamSql.Proofs.Expr.Value
import StreamSql.Proofs.Grammar.Asides
import StreamSql.Proofs.Grammar.Columns
import StreamSql.Proofs.Grammar.Leading
import StreamSql.Proofs.Json.Expr
import StreamSql.Proofs.Json.Plan
import StreamSql.Proofs.Json.Text
import StreamSql.Proofs.Outcome
import StreamSql.Proofs.Plan.Conditions
import StreamSql.Proofs.Plan.Created
import StreamSql.Proofs.Plan.Depth
import StreamSql.Proofs.Plan.Failures
import StreamSql.Proofs.Plan.FoldedTypes
import StreamSql.Proofs.Plan.Folding
import StreamSql.Proofs.Plan.GroupTypes
import StreamSql.Proofs.Plan.Grouping
import StreamSql.Proofs.Plan.JoinKeys
import StreamSql.Proofs.Plan.Layers
import StreamSql.Proofs.Plan.LetterCase
import StreamSql.Proofs.Plan.Qualifiers
import StreamSql.Proofs.Plan.Reduced
import StreamSql.Proofs.Plan.Respelling
import StreamSql.Proofs.Plan.ResultNames
import StreamSql.Proofs.Plan.Stages
import StreamSql.Proofs.Schema
import StreamSql.Proofs.Script.Asides
import StreamSql.Proofs.Script.Columns
import StreamSql.Proofs.Script.Constant
import StreamSql.Proofs.Script.Depth
import StreamSql.Proofs.Script.Durations
import StreamSql.Proofs.Script.Envelope
import StreamSql.Proofs.Script.Reading
import StreamSql.Proofs.Script.Rendering
import StreamSql.Proofs.Script.WindowClause
import StreamSql.Proofs.Script.WindowText
import StreamSql.Proofs.Token.Content
import StreamSql.Proofs.Token.Places
import StreamSql.Proofs.Token.Reread
import StreamSql.Proofs.Token.Rescan
import StreamSql.Proofs.Token.Shape
import StreamSql.Proofs.Token.Step
import StreamSql.Proofs.Token.Symbols
import StreamSql.Proofs.Typing
import StreamSql.Proofs.Typing.BranchOrder
import StreamSql.Proofs.Typing.Narrowing
import StreamSql.Proofs.Typing.Rules
import StreamSql.Proofs.Typing.Simplified
