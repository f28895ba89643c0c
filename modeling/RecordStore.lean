import RecordStore.Handle.Datum
import RecordStore.Lock.Script
import RecordStore.Session.Run
import RecordStore.Settings.Document
import RecordStore.Proofs.Records.History
import RecordStore.Proofs.Space.Full
import RecordStore.Proofs.Query.Following
import RecordStore.Proofs.Lock.Waking
import RecordStore.Proofs.Sections.Counting
import RecordStore.Error.Basic
import RecordStore.Proofs.Directory
import RecordStore.Proofs.Engine.Upkeep
import RecordStore.Proofs.Engine.Registry
import RecordStore.Proofs.Engine.Attachments
import RecordStore.Proofs.Engine.Naming
import RecordStore.Proofs.Engine.Failing
import RecordStore.Proofs.Engine.Validation
import RecordStore.Proofs.Client.Usage
import RecordStore.Proofs.Client.Returns
import RecordStore.Proofs.Client.Turns
import RecordStore.Proofs.Client.Calls
import RecordStore.Proofs.Client.Tracking
import RecordStore.Proofs.Client.Closing
import RecordStore.Proofs.Engine.Separation
import RecordStore.Proofs.Engine.Staleness
import RecordStore.Proofs.Schema.Sorting
import RecordStore.Proofs.Client.Writing
import RecordStore.Proofs.Client.Mapping
import RecordStore.Proofs.Client.Reading
import RecordStore.Proofs.Toml.Quotation
import RecordStore.Proofs.Toml.Value
import RecordStore.Proofs.Toml.Document
import RecordStore.Proofs.Settings.RoundTrip
import RecordStore.Proofs.Client.Foreign
import RecordStore.Proofs.Engine.Releasing
import RecordStore.Proofs.Space.Charging
import RecordStore.Proofs.Records.Traversal
import RecordStore.Proofs.Client.Holdings
import RecordStore.Proofs.Client.Routines
import RecordStore.Proofs.Client.Brackets
import RecordStore.Proofs.Client.Guarding
import RecordStore.Proofs.Query.Comparing
import RecordStore.Proofs.SlotTable.Representation
