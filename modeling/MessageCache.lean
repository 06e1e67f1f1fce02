import MessageCache.Config
import MessageCache.Disk.Basic
import MessageCache.Disk.Directory
import MessageCache.Disk.Path
import MessageCache.Json.Reading
import MessageCache.Json.Record
import MessageCache.Json.Scan
import MessageCache.Json.Source
import MessageCache.Json.Value
import MessageCache.Log
import MessageCache.Message.Basic
import MessageCache.Message.Delivery
import MessageCache.Message.Identifier
import MessageCache.Message.Json
import MessageCache.Message.Tags
import MessageCache.Number.Binary64
import MessageCache.Number.Column
import MessageCache.Number.Decimal
import MessageCache.Number.Digits
import MessageCache.Number.Extended
import MessageCache.Number.Notation
import MessageCache.Number.Range
import MessageCache.Number.Shortest
import MessageCache.Number.Sum
import MessageCache.Opening
import MessageCache.Proofs.Table.Transaction
import MessageCache.Schema.Layout
import MessageCache.Schema.Step
import MessageCache.Schema.Upgrade
import MessageCache.Schema.Version
import MessageCache.Session
import MessageCache.Sorting
import MessageCache.Storage.Basic
import MessageCache.Storage.FileLink.Basic
import MessageCache.Storage.FileLink.Change
import MessageCache.Storage.FileLink.Leave
import MessageCache.Storage.FileLink.Log
import MessageCache.Storage.FileLink.Memory
import MessageCache.Storage.Location
import MessageCache.Storage.Place
import MessageCache.Storage.Pool
import MessageCache.Storage.View
import MessageCache.Store.Call
import MessageCache.Store.Error
import MessageCache.Store.Operations
import MessageCache.Store.Row
import MessageCache.Table.Basic
import MessageCache.Table.Cell
import MessageCache.Table.Condition
import MessageCache.Table.Fault
import MessageCache.Table.Own
import MessageCache.Table.Pages
import MessageCache.Table.Query
import MessageCache.Table.Search
import MessageCache.Table.Statement
import MessageCache.Table.Transaction
import MessageCache.Text.Hex
import MessageCache.Text.Quoted
import MessageCache.Text.Split
import MessageCache.Text.Utf8
import MessageCache.Proofs.Table.Statement
import MessageCache.Proofs.Table.Conformance
import MessageCache.Proofs.Schema.Record
import MessageCache.Proofs.Message.Tags
import MessageCache.Proofs.Schema.Carry
import MessageCache.Proofs.Schema.Release
import MessageCache.Proofs.Store.LifeCycle
import MessageCache.Proofs.Schema.Outcome
import MessageCache.Proofs.Schema.Fresh
import MessageCache.Proofs.Schema.OnRecord
import MessageCache.Proofs.Schema.Detection
import MessageCache.Proofs.Store.Readable
import MessageCache.Proofs.Store.Listing
import MessageCache.Proofs.Store.RoundTrip
import MessageCache.Proofs.Store.Views
import MessageCache.Proofs.Store.Sweep
import MessageCache.Proofs.Store.Reuse
import MessageCache.Proofs.Schema.Legacy
import MessageCache.Proofs.Store.Reclaim
import MessageCache.Proofs.Store.Damage
import MessageCache.Proofs.Message.Json
import MessageCache.Proofs.Session.Reopening
import MessageCache.Proofs.Store.Kept
import MessageCache.Proofs.Config.Timeout
import MessageCache.Proofs.Store.Acceptance
import MessageCache.Proofs.Store.Owners
import MessageCache.Proofs.Store.Polls
import MessageCache.Proofs.Store.Pruning
import MessageCache.Proofs.Store.Everything
import MessageCache.Proofs.Store.Selection
import MessageCache.Proofs.Store.Quota
import MessageCache.Proofs.Table.Sum
import MessageCache.Proofs.Store.Sizes
import MessageCache.Proofs.Json.Format
import MessageCache.Proofs.Message.Format
import MessageCache.Proofs.Store.Topics
import MessageCache.Proofs.Store.Expiry
import MessageCache.Proofs.Message.StoredTags
import MessageCache.Proofs.Config.Environment
