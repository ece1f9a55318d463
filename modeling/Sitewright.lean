import Sitewright.Api.Access
import Sitewright.Api.Authority
import Sitewright.Api.Condition
import Sitewright.Api.Description
import Sitewright.Api.Reference
import Sitewright.Api.Request
import Sitewright.Api.Response
import Sitewright.Api.Route
import Sitewright.Api.Service
import Sitewright.Api.Target
import Sitewright.Document.Component
import Sitewright.Document.Copy
import Sitewright.Document.Deployment
import Sitewright.Document.Identifier
import Sitewright.Document.Metadata
import Sitewright.Document.Node
import Sitewright.Document.Project
import Sitewright.Document.Repair
import Sitewright.Document.Shape
import Sitewright.Document.Slug
import Sitewright.Document.Tree
import Sitewright.Document.Validity
import Sitewright.Enhancement.Endpoint
import Sitewright.Enhancement.Prompt
import Sitewright.Enhancement.Reply
import Sitewright.Error
import Sitewright.Fields
import Sitewright.Json.Basic
import Sitewright.Json.Canonical
import Sitewright.Json.Display
import Sitewright.Json.Mapping
import Sitewright.Json.Nesting
import Sitewright.Json.Number
import Sitewright.Json.Reader
import Sitewright.Json.Writer
import Sitewright.Listing.Cursor
import Sitewright.Listing.Page
import Sitewright.Machine
import Sitewright.Markup.Attribute
import Sitewright.Markup.Element
import Sitewright.Markup.Props
import Sitewright.Markup.Render
import Sitewright.Number.Arithmetic
import Sitewright.Number.Binary64
import Sitewright.Number.ShortDecimal
import Sitewright.Number.Shortest
import Sitewright.Operation.Call
import Sitewright.Operation.Enhance
import Sitewright.Operation.Promote
import Sitewright.Operation.Read
import Sitewright.Operation.Save
import Sitewright.Proofs.Api.Address
import Sitewright.Proofs.Api.Browsing
import Sitewright.Proofs.Api.Calls
import Sitewright.Proofs.Api.Copies
import Sitewright.Proofs.Api.Echo
import Sitewright.Proofs.Api.Exchange
import Sitewright.Proofs.Api.Lifetime
import Sitewright.Proofs.Api.Oversights
import Sitewright.Proofs.Api.Tokenless
import Sitewright.Proofs.Api.Unexpected
import Sitewright.Proofs.Document.Acceptance
import Sitewright.Proofs.Document.Copying
import Sitewright.Proofs.Document.Distinct
import Sitewright.Proofs.Document.Draw
import Sitewright.Proofs.Document.Earliest
import Sitewright.Proofs.Document.Faults
import Sitewright.Proofs.Document.Grammar
import Sitewright.Proofs.Document.Keeping
import Sitewright.Proofs.Document.Lasting
import Sitewright.Proofs.Document.Levels
import Sitewright.Proofs.Document.Likeness
import Sitewright.Proofs.Document.Mistakes
import Sitewright.Proofs.Document.Position
import Sitewright.Proofs.Document.Reading
import Sitewright.Proofs.Document.Repairing
import Sitewright.Proofs.Document.Stages
import Sitewright.Proofs.Document.Traversal
import Sitewright.Proofs.Document.Uniqueness
import Sitewright.Proofs.Document.WellFormed
import Sitewright.Proofs.Enhancement.Fences
import Sitewright.Proofs.Enhancement.Reply
import Sitewright.Proofs.Enhancement.Unfenced
import Sitewright.Proofs.Foreseen
import Sitewright.Proofs.Json.Alike
import Sitewright.Proofs.Json.Distinct
import Sitewright.Proofs.Json.Escape
import Sitewright.Proofs.Json.Layout
import Sitewright.Proofs.Json.Legible
import Sitewright.Proofs.Json.Numeral
import Sitewright.Proofs.Json.Reading
import Sitewright.Proofs.Listing.Cursor
import Sitewright.Proofs.Listing.Page
import Sitewright.Proofs.Markup.Extent
import Sitewright.Proofs.Markup.Faithful
import Sitewright.Proofs.Markup.Layout
import Sitewright.Proofs.Markup.Lines
import Sitewright.Proofs.Markup.Pieces
import Sitewright.Proofs.Markup.Props
import Sitewright.Proofs.Markup.Reading
import Sitewright.Proofs.Markup.Tags
import Sitewright.Proofs.Markup.Visible
import Sitewright.Proofs.Operation.Agreement
import Sitewright.Proofs.Operation.Atomicity
import Sitewright.Proofs.Operation.Bound
import Sitewright.Proofs.Operation.Catalogue
import Sitewright.Proofs.Operation.Copying
import Sitewright.Proofs.Operation.Divergence
import Sitewright.Proofs.Operation.Enhancing
import Sitewright.Proofs.Operation.Faults
import Sitewright.Proofs.Operation.History
import Sitewright.Proofs.Operation.Isolation
import Sitewright.Proofs.Operation.LastWrite
import Sitewright.Proofs.Operation.Outcome
import Sitewright.Proofs.Operation.Promotion
import Sitewright.Proofs.Operation.Recording
import Sitewright.Proofs.Operation.Rewriting
import Sitewright.Proofs.Operation.Soundness
import Sitewright.Proofs.Operation.Sparing
import Sitewright.Proofs.Operation.Totality
import Sitewright.Proofs.Site.Archive
import Sitewright.Proofs.Site.Checksum
import Sitewright.Proofs.Site.Endless
import Sitewright.Proofs.Site.Faults
import Sitewright.Proofs.Site.Files
import Sitewright.Proofs.Site.Header
import Sitewright.Proofs.Site.Naming
import Sitewright.Proofs.Site.Paths
import Sitewright.Proofs.Site.Placement
import Sitewright.Proofs.Site.Snapshots
import Sitewright.Proofs.Store.Agreement
import Sitewright.Proofs.Store.Catalogue
import Sitewright.Proofs.Store.Effect
import Sitewright.Proofs.Store.Failing
import Sitewright.Proofs.Store.Frame
import Sitewright.Proofs.Store.Index
import Sitewright.Proofs.Store.Invariant
import Sitewright.Proofs.Store.Isolation
import Sitewright.Proofs.Store.Listing
import Sitewright.Proofs.Store.Loading
import Sitewright.Proofs.Store.Outcome
import Sitewright.Proofs.Store.Paging
import Sitewright.Proofs.Store.Program
import Sitewright.Proofs.Store.Recording
import Sitewright.Proofs.Store.Twin
import Sitewright.Proofs.Store.Walk
import Sitewright.Proofs.Text.Decimal
import Sitewright.Proofs.Text.Percent
import Sitewright.Proofs.Text.Split
import Sitewright.Proofs.Time.Calendar
import Sitewright.Proofs.Time.Faults
import Sitewright.Proofs.Time.HttpDate
import Sitewright.Proofs.Time.Iso
import Sitewright.Proofs.Time.Stamp
import Sitewright.Session.Command
import Sitewright.Settings
import Sitewright.Site.Archive
import Sitewright.Site.Crc32
import Sitewright.Site.Generate
import Sitewright.Site.Naming
import Sitewright.Site.Source
import Sitewright.Site.Template
import Sitewright.Store.Audit
import Sitewright.Store.Column
import Sitewright.Store.Documents
import Sitewright.Store.Tables
import Sitewright.Store.Transaction
import Sitewright.Store.World
import Sitewright.Text.Case
import Sitewright.Text.Decimal
import Sitewright.Text.Digit
import Sitewright.Text.Encoding
import Sitewright.Text.Hex
import Sitewright.Text.Integer
import Sitewright.Text.Ipv6
import Sitewright.Text.Letter
import Sitewright.Text.Percent
import Sitewright.Text.Printable
import Sitewright.Text.Quoted
import Sitewright.Text.Ranges
import Sitewright.Text.Split
import Sitewright.Text.Utf16
import Sitewright.Text.Utf8
import Sitewright.Text.Words
import Sitewright.Time.Calendar
import Sitewright.Time.DateText
import Sitewright.Time.DateText.Numeral
import Sitewright.Time.DateText.Parts
import Sitewright.Time.DateText.Token
import Sitewright.Time.DateText.Word
import Sitewright.Time.DateTime
import Sitewright.Time.Freshness
import Sitewright.Time.HttpDate
import Sitewright.Time.Iso
import Sitewright.Time.MailDate
