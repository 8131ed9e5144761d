import Templating.Main
import Templating.Library.Memory
import Templating.Markup.Escape
import Templating.Markup.Output
import Templating.Proofs.Scan.Invariant
import Templating.Proofs.Event.Nesting
import Templating.Proofs.Scan.Nesting
import Templating.Proofs.Scan.Lookback
import Templating.Proofs.Scan.Fragments
import Templating.Proofs.Scan.Blocks
import Templating.Proofs.Template.RoundTrip
import Templating.Proofs.Param.Declaration
import Templating.Proofs.Scan.Lines
import Templating.Proofs.SourceUnit.Draft
import Templating.Proofs.Dialect.OneLine
import Templating.Proofs.Generation.Trace
import Templating.Proofs.Generation.LineMap
import Templating.Proofs.Literal.Decode
import Templating.Proofs.Scan.Verbatim
import Templating.Proofs.Dialect.Binary
import Templating.Proofs.Dialect.Statics
import Templating.Proofs.Generation.StaticText
import Templating.Proofs.Scan.Header
import Templating.Proofs.Generation.Calls
import Templating.Proofs.Session.Closure
import Templating.Proofs.Session.Step
import Templating.Proofs.Session.Reach
import Templating.Proofs.Session.Descent
import Templating.Proofs.Session.Batch
import Templating.Proofs.Session.Tracking
import Templating.Proofs.Session.Run
import Templating.Proofs.Session.Freshness
import Templating.Proofs.Generation.View
import Templating.Proofs.Session.Outcome
import Templating.Proofs.Session.Invalidation
import Templating.Proofs.Session.Dependencies
import Templating.Proofs.Scan.Quotes
import Templating.Proofs.Generation.Announcement
import Templating.Proofs.Scan.Interception
import Templating.Proofs.Scan.Cursor.Safety
import Templating.Proofs.Text.Everywhere
import Templating.Proofs.Literal.Sealed
import Templating.Proofs.Generation.Outline
import Templating.Proofs.Session.Fetching
import Templating.Proofs.Session.Depth
import Templating.Proofs.Scan.Deed
import Templating.Proofs.Event.Branches
import Templating.Proofs.Scan.Branches
import Templating.Proofs.Scan.Grounded
import Templating.Proofs.Scan.Placement
import Templating.Proofs.Scan.Leak
import Templating.Proofs.Text.Joined
import Templating.Proofs.SourceUnit.Address
import Templating.Proofs.Name.Extension
import Templating.Proofs.Session.Supply
import Templating.Proofs.Session.Addresses
import Templating.Proofs.Session.Targets
import Templating.Proofs.Generation.Ascent
import Templating.Proofs.Session.Translation
import Templating.Proofs.Packaging.Bundle
import Templating.Proofs.Packaging.Links
import Templating.Proofs.Files.Places
import Templating.Proofs.Packaging.Files
import Templating.Proofs.Template.Groups
import Templating.Proofs.Scan.Groups
import Templating.Proofs.Scan.Delimited
import Templating.Proofs.Scan.Splitting
import Templating.Proofs.Scan.Marks
import Templating.Proofs.Scan.Elements
import Templating.Proofs.Scan.Attributes
import Templating.Proofs.Binding.Entries
import Templating.Proofs.Binding.Order
import Templating.Proofs.Scan.Otherwise
import Templating.Proofs.Scan.Angles
import Templating.Proofs.Binding.Refusal
import Templating.Proofs.Text.Identifier
import Templating.Proofs.Argument.Assignment
import Templating.Proofs.Param.RoundTrip
import Templating.Proofs.Binding.Expressions
import Templating.Proofs.Name.Reference
import Templating.Proofs.Library.Confinement
import Templating.Proofs.Text.Encoding
import Templating.Proofs.Literal.Packing
import Templating.Proofs.Markup.Escape
import Templating.Proofs.Generation.Verdict
import Templating.Proofs.Markup.Output
import Templating.Proofs.Scan.Places
