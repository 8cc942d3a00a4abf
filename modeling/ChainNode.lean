import ChainNode.Bytes
import ChainNode.Bytes.LittleEndian
import ChainNode.Bytes.BigEndian
import ChainNode.Bytes.Hex
import ChainNode.Sha512
import ChainNode.Ed25519.Curve
import ChainNode.Ed25519.Signing
import ChainNode.RepositoryError
import ChainNode.Transaction
import ChainNode.Archive.Block
import ChainNode.Archive.Error
import ChainNode.Archive.Record.Decoder
import ChainNode.Archive.Record.V1
import ChainNode.Archive.Record.V2
import ChainNode.Archive.Record
import ChainNode.Numeral
import ChainNode.StableSort
import ChainNode.Archive.FileName
import ChainNode.Archive.Directory
import ChainNode.Archive.Segment
import ChainNode.Archive.Sample
import ChainNode.Archive.Segment.Builder
import ChainNode.Archive.Storage
import ChainNode.Archive.Index
import ChainNode.Archive.Reader
import ChainNode.Json.Value
import ChainNode.Json.Text
import ChainNode.Json.Parser
import ChainNode.Json.Fields
import ChainNode.Transaction.Json
import ChainNode.Admission.Queue
import ChainNode.Admission.Cooldowns
import ChainNode.Admission.UnconfirmedCache
import ChainNode.Admission.Outcome
import ChainNode.Admission.Config
import ChainNode.Admission.Report
import ChainNode.Admission.Repository
import ChainNode.Admission.ChainState
import ChainNode.Admission.Environment
import ChainNode.Admission.Pipeline
import ChainNode.Admission.Run
import ChainNode.Proofs.Admission.Cooldowns
import ChainNode.Proofs.Admission.Cycle
import ChainNode.Proofs.Admission.Importing
import ChainNode.Proofs.Admission.Judging
import ChainNode.Proofs.Admission.Queue
import ChainNode.Proofs.Admission.Restriction
import ChainNode.Proofs.Admission.Ruling
import ChainNode.Proofs.Admission.Run
import ChainNode.Proofs.Admission.Conservation
import ChainNode.Proofs.Admission.Deadline
import ChainNode.Proofs.Admission.Barring
import ChainNode.Proofs.Admission.Exclusion
import ChainNode.Proofs.Admission.Vetting
import ChainNode.Proofs.Bytes.SignedWords
import ChainNode.Proofs.Archive.Steps
import ChainNode.Proofs.Archive.Decoder
import ChainNode.Proofs.Archive.Record.V1
import ChainNode.Proofs.Archive.Record.V2
import ChainNode.Proofs.Numeral
import ChainNode.Proofs.Archive.Naming
import ChainNode.Proofs.Archive.Directory
import ChainNode.Proofs.Archive.Storage
import ChainNode.Proofs.Archive.Reader
import ChainNode.Proofs.Archive.Snapshot
import ChainNode.Proofs.Archive.Segment
import ChainNode.Proofs.Archive.Segment.Builder
import ChainNode.Proofs.Archive.Record
import ChainNode.Proofs.Archive.Retrieval
import ChainNode.Proofs.Archive.Relaying
import ChainNode.Proofs.Admission.Account
import ChainNode.Proofs.Admission.Surroundings
import ChainNode.Proofs.Admission.LiteMode
import ChainNode.Proofs.Admission.Mirroring
import ChainNode.Proofs.Admission.Announcing
import ChainNode.Proofs.Admission.Completion
import ChainNode.Proofs.Admission.Locking
import ChainNode.Proofs.Admission.WalkOrder
import ChainNode.Proofs.Admission.Deferral
import ChainNode.Proofs.Admission.Forgery
import ChainNode.Proofs.Archive.Layout
import ChainNode.Proofs.Archive.Containment
import ChainNode.Proofs.Archive.Index
import ChainNode.Proofs.Archive.Segment.Settings
import ChainNode.Proofs.Archive.Delimiting
import ChainNode.Proofs.Archive.Range
import ChainNode.Proofs.Admission.Sifting
import ChainNode.Proofs.Admission.Cutoff
import ChainNode.Proofs.Admission.Purging
import ChainNode.Proofs.Admission.Activity
import ChainNode.Proofs.StableSort
import ChainNode.Proofs.Archive.Lookup
import ChainNode.Proofs.Transaction.Signing
import ChainNode.Proofs.Admission.Holding
import ChainNode.Proofs.Admission.Screening
import ChainNode.Proofs.Json.Parser
import ChainNode.Proofs.Json.Fields
import ChainNode.Proofs.Transaction.Json
