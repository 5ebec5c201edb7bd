import Waybill.Archive.Deflate
import Waybill.Archive.Words
import Waybill.Archive.Zip
import Waybill.Artifact.Basic
import Waybill.Calendar.Date
import Waybill.Calendar.Instant
import Waybill.Calendar.Reading
import Waybill.Catalog.Basic
import Waybill.Catalog.Import
import Waybill.Catalog.Reading
import Waybill.Cli.Command
import Waybill.Cli.Host
import Waybill.Cli.Run
import Waybill.Cli.Usage
import Waybill.Decimal.Reading
import Waybill.Decimal.Shortest
import Waybill.Delivery.Path
import Waybill.Delivery.Queue
import Waybill.Digest.Sha256
import Waybill.Drive.Client
import Waybill.Drive.Config
import Waybill.Drive.Endpoint
import Waybill.Drive.Error
import Waybill.Drive.Http
import Waybill.Files.Path
import Waybill.Files.Tree
import Waybill.Generation.Error
import Waybill.Generation.Generate
import Waybill.Generation.Plan
import Waybill.Generation.Render
import Waybill.Generation.Step
import Waybill.History.Edit
import Waybill.History.Version
import Waybill.Instances
import Waybill.Json.Basic
import Waybill.Json.Number
import Waybill.Json.Parser
import Waybill.Json.Printer
import Waybill.Json.Reading
import Waybill.Main
import Waybill.Mapping.Fill
import Waybill.Mapping.Rule
import Waybill.Pack.Basic
import Waybill.Pack.Route
import Waybill.Payload.Basic
import Waybill.Payload.File
import Waybill.Payload.OfJson
import Waybill.Payload.Path
import Waybill.Pdf.Compress
import Waybill.Pdf.Document
import Waybill.Pdf.Error
import Waybill.Pdf.Filter
import Waybill.Pdf.Lexical
import Waybill.Pdf.Merge
import Waybill.Pdf.Object
import Waybill.Pdf.Picture
import Waybill.Pdf.Reader
import Waybill.Pdf.Renumber
import Waybill.Pdf.Writer
import Waybill.Program
import Waybill.Settings
import Waybill.Sheet.Format
import Waybill.Sheet.Cell
import Waybill.Sheet.Memory
import Waybill.Sheet.Workbook
import Waybill.Sheet.Xlsx
import Waybill.Store.Artifacts
import Waybill.Store.Basic
import Waybill.Store.Packs
import Waybill.Store.Rules
import Waybill.Store.Saved
import Waybill.Text.Blank
import Waybill.Text.Hidden
import Waybill.Text.Octets
import Waybill.Text.Quoted
import Waybill.Text.Split
import Waybill.Text.Upper
import Waybill.Text.Utf8
import Waybill.Url.Basic
import Waybill.Url.Host
import Waybill.Url.Percent
import Waybill.Url.Punycode
import Waybill.Url.Reading
import Waybill.Xml.Basic
import Waybill.Yaml.Cursor
import Waybill.Yaml.Node
import Waybill.Yaml.Reading
import Waybill.Yaml.Scalar
import Waybill.Yaml.Token
import Waybill.Proofs.Archive.Deflate
import Waybill.Proofs.Archive.Zip
import Waybill.Proofs.Calendar.Order
import Waybill.Proofs.Calendar.Reading
import Waybill.Proofs.Calendar.Stamp
import Waybill.Proofs.Catalog.Content
import Waybill.Proofs.Catalog.Import
import Waybill.Proofs.Catalog.Lookup
import Waybill.Proofs.Catalog.Match
import Waybill.Proofs.Catalog.Numbers
import Waybill.Proofs.Catalog.Reimport
import Waybill.Proofs.Catalog.Rejection
import Waybill.Proofs.Catalog.Report
import Waybill.Proofs.Catalog.Resume
import Waybill.Proofs.Catalog.Steps
import Waybill.Proofs.Catalog.Template
import Waybill.Proofs.Delivery.Attempt
import Waybill.Proofs.Delivery.Budget
import Waybill.Proofs.Delivery.Collision
import Waybill.Proofs.Delivery.Crew
import Waybill.Proofs.Delivery.Drain
import Waybill.Proofs.Delivery.Integrity
import Waybill.Proofs.Delivery.LifeCycle
import Waybill.Proofs.Delivery.Log
import Waybill.Proofs.Delivery.Ownership
import Waybill.Proofs.Delivery.Path
import Waybill.Proofs.Delivery.Reference
import Waybill.Proofs.Drive.Call
import Waybill.Proofs.Drive.Conversation
import Waybill.Proofs.Drive.Endpoint
import Waybill.Proofs.Drive.Ending
import Waybill.Proofs.Drive.Freshness
import Waybill.Proofs.Drive.Place
import Waybill.Proofs.Drive.Run
import Waybill.Proofs.Drive.Secret
import Waybill.Proofs.Drive.Token
import Waybill.Proofs.Files.Tree
import Waybill.Proofs.Generation.Agreement
import Waybill.Proofs.Generation.Artifact
import Waybill.Proofs.Generation.Fallback
import Waybill.Proofs.Generation.Interleaving
import Waybill.Proofs.Generation.Jobs
import Waybill.Proofs.Generation.Labels
import Waybill.Proofs.Generation.Naming
import Waybill.Proofs.Generation.Plan
import Waybill.Proofs.Generation.Printed
import Waybill.Proofs.Generation.Within
import Waybill.Proofs.Generation.World
import Waybill.Proofs.History.Cells
import Waybill.Proofs.History.Commit
import Waybill.Proofs.History.Edit
import Waybill.Proofs.History.Records
import Waybill.Proofs.History.Rules
import Waybill.Proofs.History.Timeline
import Waybill.Proofs.Mapping.Alike
import Waybill.Proofs.Mapping.Order
import Waybill.Proofs.Mapping.Known
import Waybill.Proofs.Mapping.Plan
import Waybill.Proofs.Mapping.Watch
import Waybill.Proofs.Operation
import Waybill.Proofs.Payload.Dates
import Waybill.Proofs.Payload.File
import Waybill.Proofs.Payload.Path
import Waybill.Proofs.Pdf.Binding
import Waybill.Proofs.Pdf.Gathering
import Waybill.Proofs.Pdf.Inheritance
import Waybill.Proofs.Pdf.Isolation
import Waybill.Proofs.Pdf.Numbering
import Waybill.Proofs.Pdf.Objects
import Waybill.Proofs.Pdf.PageTree
import Waybill.Proofs.Pdf.Places
import Waybill.Proofs.Pdf.Pool
import Waybill.Proofs.Pdf.Relocation
import Waybill.Proofs.Pdf.Saving
import Waybill.Proofs.Pdf.Shown
import Waybill.Proofs.Pdf.Values
import Waybill.Proofs.Sheet.Cell
import Waybill.Proofs.Sheet.Memory
import Waybill.Proofs.Sheet.Reference
import Waybill.Proofs.Sheet.Xlsx
import Waybill.Proofs.Store.Action
import Waybill.Proofs.Store.Schema
import Waybill.Proofs.Store.Tables
import Waybill.Proofs.Text.Split
import Waybill.Proofs.Text.Trim
import Waybill.Proofs.Text.Utf8
import Waybill.Proofs.Url.Percent
import Waybill.Proofs.Url.Push
