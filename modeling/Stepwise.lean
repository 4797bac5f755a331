import Stepwise.Command.Arguments
import Stepwise.Command.Basic
import Stepwise.Command.Program
import Stepwise.Command.Run
import Stepwise.Command.Text
import Stepwise.Config
import Stepwise.Data
import Stepwise.Decimal.Binary64
import Stepwise.Decimal.Shortest
import Stepwise.Directory
import Stepwise.Document.Fields
import Stepwise.Document.Filter
import Stepwise.Document.Index
import Stepwise.Document.Path
import Stepwise.Document.Update
import Stepwise.Files.Name
import Stepwise.Files.Tree
import Stepwise.Instant.Basic
import Stepwise.Instant.Text
import Stepwise.Json.Data
import Stepwise.Json.Form
import Stepwise.Json.Numeral
import Stepwise.Json.Text
import Stepwise.Ledger
import Stepwise.Ledger.Format
import Stepwise.Main
import Stepwise.Migration.Basic
import Stepwise.Migration.Definition
import Stepwise.Migration.Error
import Stepwise.Migration.Id
import Stepwise.Migrator
import Stepwise.Operation.Basic
import Stepwise.Operation.Format
import Stepwise.Plan
import Stepwise.Registry
import Stepwise.RunLock
import Stepwise.Sheet.Basic
import Stepwise.Sheet.Json
import Stepwise.Sheet.Yaml
import Stepwise.SortedMap
import Stepwise.Status
import Stepwise.Status.Format
import Stepwise.Store.Basic
import Stepwise.Store.Collection
import Stepwise.Store.Error
import Stepwise.Store.Host
import Stepwise.Store.Script
import Stepwise.Template
import Stepwise.Text.Blank
import Stepwise.Text.Digit
import Stepwise.Text.Parts
import Stepwise.Text.Printable
import Stepwise.Text.Quoted
import Stepwise.Text.Ranges
import Stepwise.Text.Utf8
import Stepwise.Value
import Stepwise.Yaml.Block
import Stepwise.Yaml.Cursor
import Stepwise.Yaml.Folding
import Stepwise.Yaml.Layout
import Stepwise.Yaml.Meaning
import Stepwise.Yaml.Node
import Stepwise.Yaml.Plain
import Stepwise.Yaml.Quotes
import Stepwise.Yaml.Tag
import Stepwise.Yaml.Token
import Stepwise.Proofs.Store.Agreement
import Stepwise.Proofs.Script.Calls
import Stepwise.Proofs.Document.Identity
import Stepwise.Proofs.Document.Lookup
import Stepwise.Proofs.Document.Outline
import Stepwise.Proofs.Ledger.IdSet
import Stepwise.Proofs.Ledger.Recorded
import Stepwise.Proofs.Plan.Rest
import Stepwise.Proofs.Plan.Bound
import Stepwise.Proofs.Lock.Holders
import Stepwise.Proofs.Lock.Order
import Stepwise.Proofs.Lock.Serialisable
import Stepwise.Proofs.Run.Batch
import Stepwise.Proofs.Run.Course
import Stepwise.Proofs.Run.Data
import Stepwise.Proofs.Run.History
import Stepwise.Proofs.Run.Report
import Stepwise.Proofs.Store.PrimaryKey
import Stepwise.Proofs.Store.UniqueIndex
import Stepwise.Proofs.Store.Alike
import Stepwise.Proofs.Store.Refusal
import Stepwise.Proofs.Ledger.Key
import Stepwise.Proofs.Run.Trace
import Stepwise.Proofs.Run.Pinned
import Stepwise.Proofs.Run.Preview
import Stepwise.Proofs.Ledger.Entries
import Stepwise.Proofs.Run.Restart
import Stepwise.Proofs.Run.Completed
import Stepwise.Proofs.Run.Split
import Stepwise.Proofs.Run.Rivals
import Stepwise.Proofs.Files.Name
import Stepwise.Proofs.Text.Utf8
import Stepwise.Proofs.Files.Tree
import Stepwise.Proofs.Text.Quoted
import Stepwise.Proofs.Yaml.Cursor
import Stepwise.Proofs.Yaml.Quotes
import Stepwise.Proofs.Yaml.Layout
import Stepwise.Proofs.Yaml.Mapping
import Stepwise.Proofs.Template.Text
import Stepwise.Proofs.Directory.Registry
import Stepwise.Proofs.Template.Identifier
import Stepwise.Proofs.Directory.Load
import Stepwise.Proofs.Template.Creation
import Stepwise.Proofs.Lock.Transparent
import Stepwise.Proofs.Ledger.Status
import Stepwise.Proofs.Ledger.Map
import Stepwise.Proofs.Plan.Count
import Stepwise.Proofs.Run.Latest
import Stepwise.Proofs.Registry.OrderedMap
import Stepwise.Proofs.Plan.Exact
import Stepwise.Proofs.Script.Steps
import Stepwise.Proofs.Identifier.Parts
import Stepwise.Proofs.Identifier.Chronology
import Stepwise.Proofs.Directory.Order
import Stepwise.Proofs.Document.Data
import Stepwise.Proofs.Operation.Format
import Stepwise.Proofs.Identifier.Slug
import Stepwise.Proofs.Template.Naming
import Stepwise.Proofs.Store.IndexFilter
import Stepwise.Proofs.Script.Confinement
