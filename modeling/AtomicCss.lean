import AtomicCss.Compile
import AtomicCss.Condition
import AtomicCss.Construct.Block
import AtomicCss.Construct.Keyframes
import AtomicCss.Construct.PositionTry
import AtomicCss.Construct.Variables
import AtomicCss.Construct.ViewTransition
import AtomicCss.Decimal.Basic
import AtomicCss.Decimal.Double
import AtomicCss.Decimal.Format
import AtomicCss.Decimal.Shortest
import AtomicCss.Declaration
import AtomicCss.Definition
import AtomicCss.Digest.Base36
import AtomicCss.Digest.Basic
import AtomicCss.Direction
import AtomicCss.Error
import AtomicCss.Expansion
import AtomicCss.Inline.Code
import AtomicCss.Inline.Item
import AtomicCss.Inline.Token
import AtomicCss.Json.Basic
import AtomicCss.Json.Document
import AtomicCss.Json.Numeral
import AtomicCss.Json.Reader
import AtomicCss.Json.Writer
import AtomicCss.Keyed
import AtomicCss.Kind
import AtomicCss.Lookup
import AtomicCss.Naming
import AtomicCss.Options
import AtomicCss.Priority
import AtomicCss.Property.Class
import AtomicCss.Property.Name
import AtomicCss.Property.Rank
import AtomicCss.Property.Shorthand
import AtomicCss.Rule
import AtomicCss.Session.Basic
import AtomicCss.Session.Batch
import AtomicCss.Session.Cache
import AtomicCss.Session.Manifest
import AtomicCss.Sheet
import AtomicCss.Text.Alphanumeric
import AtomicCss.Text.Basic
import AtomicCss.Text.Blank
import AtomicCss.Text.Identifier
import AtomicCss.Text.Printable
import AtomicCss.Text.Ranges
import AtomicCss.Value.Dimension
import AtomicCss.Value.Node
import AtomicCss.Value.Normal
import AtomicCss.Value.Reader
import AtomicCss.Proofs.Decimal.Text
import AtomicCss.Proofs.Definition.Canonical
import AtomicCss.Proofs.Compile.Determinacy
import AtomicCss.Proofs.Session.Transparency
import AtomicCss.Proofs.Expansion.Conditions
import AtomicCss.Proofs.Condition
import AtomicCss.Proofs.Naming
import AtomicCss.Proofs.Rule
import AtomicCss.Proofs.Rule.ContentAddressing
import AtomicCss.Proofs.Construct.Naming
import AtomicCss.Proofs.Construct.Theme
import AtomicCss.Proofs.Json.Reader
import AtomicCss.Proofs.Session.Manifest
import AtomicCss.Proofs.Sheet.Order
import AtomicCss.Proofs.Sheet.Layers
import AtomicCss.Proofs.Session.Cache
import AtomicCss.Proofs.Session.Batch
import AtomicCss.Proofs.Session.History
import AtomicCss.Proofs.Session.Failure
import AtomicCss.Proofs.Session.Repetition
import AtomicCss.Proofs.Value.Number
import AtomicCss.Proofs.Value.Token
import AtomicCss.Proofs.Value.RoundTrip
import AtomicCss.Proofs.Decimal.NotANumber
import AtomicCss.Proofs.Value.Trim
import AtomicCss.Proofs.Value.Dimension
import AtomicCss.Proofs.Value.Dashed
import AtomicCss.Proofs.Value.Spacing
import AtomicCss.Proofs.Value.Rejoin
import AtomicCss.Proofs.Value.Idempotence
import AtomicCss.Proofs.Priority
import AtomicCss.Proofs.Lookup
import AtomicCss.Proofs.Compile.References
import AtomicCss.Proofs.Value.Boundaries
import AtomicCss.Proofs.Value.Outline
import AtomicCss.Proofs.Inline.Literal
import AtomicCss.Proofs.Inline.Token
import AtomicCss.Proofs.Value.Content
import AtomicCss.Proofs.Inline.Source
import AtomicCss.Proofs.Expansion.Attempts
import AtomicCss.Proofs.Expansion.Removal
import AtomicCss.Proofs.Sheet.Parts
import AtomicCss.Proofs.Compile.Failure
import AtomicCss.Proofs.Value.Balance
import AtomicCss.Proofs.Value.Split
import AtomicCss.Proofs.Value.Spelling
import AtomicCss.Proofs.Expansion.Number
import AtomicCss.Proofs.Compile.Group
import AtomicCss.Proofs.Expansion.Properties
import AtomicCss.Proofs.Expansion.Default
import AtomicCss.Proofs.Direction.Shadow
import AtomicCss.Proofs.Direction.Position
import AtomicCss.Proofs.Expansion.Leaves
import AtomicCss.Proofs.Direction.Forms
import AtomicCss.Proofs.Construct.Direction
import AtomicCss.Proofs.Construct.Variables
import AtomicCss.Proofs.Construct.VariableNames
import AtomicCss.Proofs.Lookup.Written
import AtomicCss.Proofs.Keyed
import AtomicCss.Proofs.Definition.Override
import AtomicCss.Proofs.Definition.Reading
import AtomicCss.Proofs.Value.Trimmed
import AtomicCss.Proofs.Expansion.Names
import AtomicCss.Proofs.Digest.Base36
import AtomicCss.Proofs.Construct.AnimationNames
