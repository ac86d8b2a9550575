import RequestGate.Artifact.Basic
import RequestGate.Artifact.Compile
import RequestGate.Artifact.Load
import RequestGate.CommandLine.Arguments
import RequestGate.CommandLine.Memory
import RequestGate.CommandLine.Report
import RequestGate.CommandLine.Run
import RequestGate.Digest.Canonical
import RequestGate.Digest.Sha256
import RequestGate.Document.Basic
import RequestGate.Document.Reading
import RequestGate.Draft7.Compile
import RequestGate.Draft7.Content
import RequestGate.Draft7.Equality
import RequestGate.Draft7.MetaSchema
import RequestGate.Draft7.Multiple
import RequestGate.Draft7.Reference
import RequestGate.Draft7.Validate
import RequestGate.Draft7.Violation
import RequestGate.Entries
import RequestGate.Error
import RequestGate.Format.Basic
import RequestGate.Format.Host
import RequestGate.Format.Time
import RequestGate.Format.Uri
import RequestGate.Gate
import RequestGate.Json.Basic
import RequestGate.Json.Parser
import RequestGate.Json.Pointer
import RequestGate.Json.Printer
import RequestGate.Json.Record
import RequestGate.Main
import RequestGate.Media.ContentType
import RequestGate.Media.Negotiation
import RequestGate.Number.Binary64
import RequestGate.Number.Shortest
import RequestGate.Operation.Body
import RequestGate.Operation.Key
import RequestGate.Operation.Plan
import RequestGate.Operation.RequestSchema
import RequestGate.Options
import RequestGate.Parameter.Assembly
import RequestGate.Parameter.Basic
import RequestGate.Parameter.Style
import RequestGate.Pattern.Basic
import RequestGate.Pattern.Parser
import RequestGate.Proofs.Artifact.Agreement
import RequestGate.Proofs.Artifact.Declared
import RequestGate.Proofs.Artifact.Lookup
import RequestGate.Proofs.Artifact.Reading
import RequestGate.Proofs.Artifact.RoundTrip
import RequestGate.Proofs.Artifact.Tables
import RequestGate.Proofs.Artifact.Totality
import RequestGate.Proofs.Ascending
import RequestGate.Proofs.Calendar
import RequestGate.Proofs.Document
import RequestGate.Proofs.Draft7.Additional
import RequestGate.Proofs.Draft7.Conformance
import RequestGate.Proofs.Draft7.Ensured
import RequestGate.Proofs.Draft7.Order
import RequestGate.Proofs.Draft7.Placement
import RequestGate.Proofs.Draft7.Registered
import RequestGate.Proofs.Draft7.Report
import RequestGate.Proofs.Draft7.Verdict
import RequestGate.Proofs.Entries
import RequestGate.Proofs.Gate.Coherence
import RequestGate.Proofs.Gate.HeaderCase
import RequestGate.Proofs.Gate.Matching
import RequestGate.Proofs.Gate.Serving
import RequestGate.Proofs.Gate.Transparency
import RequestGate.Proofs.Json.Canonical
import RequestGate.Proofs.Json.Extension
import RequestGate.Proofs.Json.Literal
import RequestGate.Proofs.Json.Measures
import RequestGate.Proofs.Json.Pointer
import RequestGate.Proofs.Json.Reading
import RequestGate.Proofs.Json.Rearranged
import RequestGate.Proofs.Json.Record
import RequestGate.Proofs.Json.RoundTrip
import RequestGate.Proofs.Json.Thinned
import RequestGate.Proofs.Json.WellFormed
import RequestGate.Proofs.Media.Boundary
import RequestGate.Proofs.Media.ContentType
import RequestGate.Proofs.Media.Negotiation
import RequestGate.Proofs.Media.Rebuilding
import RequestGate.Proofs.Media.Selection
import RequestGate.Proofs.Number.Magnitude
import RequestGate.Proofs.Number.Rounding
import RequestGate.Proofs.Number.Shortest
import RequestGate.Proofs.Number.Text
import RequestGate.Proofs.Operation.Alike
import RequestGate.Proofs.Operation.Key
import RequestGate.Proofs.Operation.Overriding
import RequestGate.Proofs.Operation.Rearranged
import RequestGate.Proofs.Operation.WellFormed
import RequestGate.Proofs.Parameter.Absent
import RequestGate.Proofs.Parameter.Assembly
import RequestGate.Proofs.Parameter.Carrying
import RequestGate.Proofs.Parameter.Decoded
import RequestGate.Proofs.Parameter.Delimited
import RequestGate.Proofs.Parameter.Encoding
import RequestGate.Proofs.Parameter.Moves
import RequestGate.Proofs.Parameter.Partition
import RequestGate.Proofs.Parameter.Places
import RequestGate.Proofs.Parameter.QueryKeys
import RequestGate.Proofs.Request.ContentType
import RequestGate.Proofs.Rounds
import RequestGate.Proofs.Schema.Chain
import RequestGate.Proofs.Schema.Coercion
import RequestGate.Proofs.Schema.Completeness
import RequestGate.Proofs.Schema.Components
import RequestGate.Proofs.Schema.Conversions
import RequestGate.Proofs.Schema.Defaults
import RequestGate.Proofs.Schema.Deserialized
import RequestGate.Proofs.Schema.Dialect
import RequestGate.Proofs.Schema.Extension
import RequestGate.Proofs.Schema.Filling
import RequestGate.Proofs.Schema.Inert
import RequestGate.Proofs.Schema.IntegerText
import RequestGate.Proofs.Schema.Meaning
import RequestGate.Proofs.Schema.NoDefault
import RequestGate.Proofs.Schema.NormalForm
import RequestGate.Proofs.Schema.Normalize
import RequestGate.Proofs.Schema.ObjectViews
import RequestGate.Proofs.Schema.OwnType
import RequestGate.Proofs.Schema.Pruning
import RequestGate.Proofs.Schema.Pruning.Declared
import RequestGate.Proofs.Schema.Pruning.Depth
import RequestGate.Proofs.Schema.Pruning.Failing
import RequestGate.Proofs.Schema.Pruning.Modes
import RequestGate.Proofs.Schema.Pruning.Places
import RequestGate.Proofs.Schema.Pruning.Strict
import RequestGate.Proofs.Schema.Rearranged
import RequestGate.Proofs.Schema.Shape
import RequestGate.Proofs.Schema.Supplied
import RequestGate.Proofs.Schema.Visits
import RequestGate.Proofs.Schema.Walk
import RequestGate.Proofs.Success
import RequestGate.Proofs.Text.Blank
import RequestGate.Proofs.Text.Cutting
import RequestGate.Proofs.Text.Digits
import RequestGate.Proofs.Text.Lowercase
import RequestGate.Proofs.Timestamp
import RequestGate.Proofs.Validator.Absent
import RequestGate.Proofs.Validator.Accepted
import RequestGate.Proofs.Validator.Assembled
import RequestGate.Proofs.Validator.Blame
import RequestGate.Proofs.Validator.Completeness
import RequestGate.Proofs.Validator.Defaults
import RequestGate.Proofs.Validator.Deserialized
import RequestGate.Proofs.Validator.Extension
import RequestGate.Proofs.Validator.Instance
import RequestGate.Proofs.Validator.Prepared
import RequestGate.Proofs.Validator.Pruning
import RequestGate.Proofs.Validator.Rejections
import RequestGate.Proofs.Validator.Run
import RequestGate.Proofs.Validator.Shared
import RequestGate.Proofs.Validator.Stages
import RequestGate.Proofs.Validator.UnknownQuery
import RequestGate.Proofs.Validator.WellFormed
import RequestGate.Proofs.Wording
import RequestGate.Request.Basic
import RequestGate.Request.Location
import RequestGate.Schema.Coerce
import RequestGate.Schema.Defaults
import RequestGate.Schema.Deserialize
import RequestGate.Schema.Normalize
import RequestGate.Schema.Prune
import RequestGate.Schema.Reference
import RequestGate.Schema.Shape
import RequestGate.Text.Alphanumeric
import RequestGate.Text.AlphanumericTable
import RequestGate.Text.Basic
import RequestGate.Text.CaseTable
import RequestGate.Text.Lowercase
import RequestGate.Timestamp
import RequestGate.Validator
import RequestGate.Wording
import RequestGate.Yaml.Basic
import RequestGate.Yaml.Composer
import RequestGate.Yaml.Cursor
import RequestGate.Yaml.ScalarText
import RequestGate.Yaml.Scanner
