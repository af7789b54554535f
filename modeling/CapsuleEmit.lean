import CapsuleEmit.Foundation.Lines
import CapsuleEmit.Foundation.Outcome
import CapsuleEmit.Foundation.Search
import CapsuleEmit.Foundation.Places
import CapsuleEmit.Foundation.Surrogates
import CapsuleEmit.Foundation.Tables
import CapsuleEmit.Foundation.Utf8
import CapsuleEmit.Foundation.Machine
import CapsuleEmit.Foundation.JsonText
import CapsuleEmit.Foundation.Base64
import CapsuleEmit.Foundation.Sha256
import CapsuleEmit.Foundation.Python
import CapsuleEmit.ArtifactStore.Record
import CapsuleEmit.ArtifactStore.Wire
import CapsuleEmit.ArtifactStore.Index
import CapsuleEmit.ArtifactStore.Timestamp
import CapsuleEmit.ArtifactStore.Memory
import CapsuleEmit.ArtifactStore.Concrete
import CapsuleEmit.ArtifactStore.WireForm
import CapsuleEmit.ArtifactStore.Paging
import CapsuleEmit.ArtifactStore.Jsonl
import CapsuleEmit.ArtifactStore.Agreement
import CapsuleEmit.ArtifactStore.Coherence
import CapsuleEmit.ArtifactStore.Checksum
import CapsuleEmit.ArtifactStore.Durability
import CapsuleEmit.ArtifactStore.Inventory
import CapsuleEmit.ArtifactStore.Identity
import CapsuleEmit.ArtifactStore.Rows
import CapsuleEmit.ArtifactStore.Erasure
import CapsuleEmit.ArtifactStore.Sql
import CapsuleEmit.ArtifactStore.SqlRows
import CapsuleEmit.ArtifactStore.SqlMirror
import CapsuleEmit.ArtifactStore.SqlFind
import CapsuleEmit.ArtifactStore.SqlAgreement
import CapsuleEmit.ArtifactStore.StrictJson
import CapsuleEmit.Produce.Model
import CapsuleEmit.Produce.Timestamps
import CapsuleEmit.Produce.Validation
import CapsuleEmit.Produce.DuplicateNames
import CapsuleEmit.Produce.Extensions
import CapsuleEmit.Produce.Canonical
import CapsuleEmit.Produce.Build
import CapsuleEmit.Produce.Assembled
import CapsuleEmit.Produce.Concrete
import CapsuleEmit.Produce.PythonRust
import CapsuleEmit.Bilateral.Handshake
import CapsuleEmit.Bilateral.Binding
import CapsuleEmit.Gateway.Pairing
import CapsuleEmit.Gateway.Truth
import CapsuleEmit.Disclose.Verify
import CapsuleEmit.Disclose.Soundness
import CapsuleEmit.Foundation.Settlement
import CapsuleEmit.Foundation.Sections
import CapsuleEmit.Holds.Capsules
import CapsuleEmit.Holds.Aggregate
import CapsuleEmit.Holds.Engine
import CapsuleEmit.Holds.Accounts
import CapsuleEmit.Holds.Decisions
import CapsuleEmit.Holds.Digest
import CapsuleEmit.Holds.Conservation
import CapsuleEmit.Holds.Interleaving
import CapsuleEmit.Holds.Lifecycle
import CapsuleEmit.Holds.Exposure
import CapsuleEmit.Holds.Citation
import CapsuleEmit.Foundation.Continuity
import CapsuleEmit.Witnessing.Stamps
import CapsuleEmit.Witnessing.Retry
import CapsuleEmit.Witnessing.Backlog
import CapsuleEmit.Witnessing.Passes
import CapsuleEmit.Witnessing.Cycle
import CapsuleEmit.Witnessing.Chain
import CapsuleEmit.Witnessing.Crash
import CapsuleEmit.Foundation.PythonJson
import CapsuleEmit.Foundation.PythonLines
import CapsuleEmit.StoreLedger.Lines
import CapsuleEmit.StoreLedger.Ledger
import CapsuleEmit.StoreLedger.Replay
import CapsuleEmit.StoreLedger.Reopen
import CapsuleEmit.StoreLedger.Concrete
import CapsuleEmit.StoreLedger.Interruption
import CapsuleEmit.Foundation.PythonText
import CapsuleEmit.GoArtifact.Record
import CapsuleEmit.GoArtifact.Jsonl
import CapsuleEmit.GoArtifact.Purge
import CapsuleEmit.Foundation.LossyUtf8
import CapsuleEmit.Foundation.JsonEnds
import CapsuleEmit.RustLedger.Line
import CapsuleEmit.RustLedger.Flat
import CapsuleEmit.RustLedger.Reading
import CapsuleEmit.RustLedger.CompleteLines
import CapsuleEmit.RustLedger.Concrete
import CapsuleEmit.RustLedger.Append
import CapsuleEmit.RustLedger.Reopen
import CapsuleEmit.RustLedger.Padding
import CapsuleEmit.RustLedger.Chain
import CapsuleEmit.RustLedger.Faults
import CapsuleEmit.RustLedger.Journal
import CapsuleEmit.RustLedger.Survival
import CapsuleEmit.RustLedger.Runs
import CapsuleEmit.RustLedger.MeshReader
import CapsuleEmit.RustLedger.MeshLines
import CapsuleEmit.RustLedger.MeshAgreement
import CapsuleEmit.Foundation.OrderedMap
import CapsuleEmit.RustLedger.Stores
import CapsuleEmit.RustLedger.Layouts
import CapsuleEmit.RustLedger.StoreCodec
import CapsuleEmit.RustLedger.StorePadding
import CapsuleEmit.RustLedger.MemoryBacking
import CapsuleEmit.RustLedger.StoreLines
import CapsuleEmit.RustLedger.StoreAgreement
import CapsuleEmit.Foundation.Numbering
import CapsuleEmit.Foundation.TreeTable
import CapsuleEmit.Sequence.Counter
import CapsuleEmit.Sequence.Standing
import CapsuleEmit.Sequence.Arithmetic
import CapsuleEmit.Sequence.Continuity
import CapsuleEmit.Sequence.Independence
import CapsuleEmit.Reconciliation.Halves
import CapsuleEmit.Foundation.Calendar
import CapsuleEmit.Foundation.Rfc3339
import CapsuleEmit.Foundation.Decimal
import CapsuleEmit.Numbers.FloatText
import CapsuleEmit.Numbers.Payload
import CapsuleEmit.RustLedger.Sealing
import CapsuleEmit.RustLedger.SelfConsistency
import CapsuleEmit.Produce.Composition
import CapsuleEmit.Foundation.Alignment
import CapsuleEmit.Gateway.Authority
import CapsuleEmit.Gateway.Redaction
import CapsuleEmit.Gateway.AuthorityTruth
import CapsuleEmit.Foundation.Shortest
import CapsuleEmit.Numbers.RustFloats
import CapsuleEmit.Foundation.Scanner
import CapsuleEmit.Foundation.Scanning
import CapsuleEmit.Foundation.ScannedDocuments
import CapsuleEmit.Verify.InputDigest
import CapsuleEmit.Gateway.Bodies
import CapsuleEmit.Gateway.Hooks
import CapsuleEmit.Foundation.Walk
import CapsuleEmit.Core.Serializers
import CapsuleEmit.Core.Digest
import CapsuleEmit.Core.Faithfulness
import CapsuleEmit.Signing.Rotation
import CapsuleEmit.Foundation.Files
import CapsuleEmit.Keys.NodeKey
import CapsuleEmit.Core.Emit
import CapsuleEmit.Core.Commitments
import CapsuleEmit.Foundation.Integers
import CapsuleEmit.Checkpointing.Backfills
import CapsuleEmit.Checkpointing.Registration
import CapsuleEmit.Checkpointing.Substrate
import CapsuleEmit.Checkpointing.Cutting
import CapsuleEmit.Checkpointing.Draining
import CapsuleEmit.ChainSegment.Coverage
import CapsuleEmit.FlatLedger.Laws
import CapsuleEmit.StoreLedger.Imports
import CapsuleEmit.Foundation.ScannedLines
import CapsuleEmit.Otel.Documents
import CapsuleEmit.Otel.Spans
import CapsuleEmit.Otel.Backfill
import CapsuleEmit.Disclose.Selection
import CapsuleEmit.Disclose.Build
import CapsuleEmit.Disclose.Completeness
