import CreditFabric.Status
import CreditFabric.Strong
import CreditFabric.Authority
import CreditFabric.Ledger
import CreditFabric.Policy
import CreditFabric.Lib.Decoder
import CreditFabric.Lib.Mixing
import CreditFabric.Request
import CreditFabric.Bytes
import CreditFabric.Record
import CreditFabric.Journal
import CreditFabric.Account
import CreditFabric.Engine
import CreditFabric.Recovery
import CreditFabric.Lib.FiniteMap
import CreditFabric.Step
import CreditFabric.Decision
import CreditFabric.PreAdmission
import CreditFabric.Trace
import CreditFabric.Rollback
import CreditFabric.Refusal
import CreditFabric.LedgerInvariant
import CreditFabric.Sound
import CreditFabric.Closure
import CreditFabric.Sequencing
import CreditFabric.Simulation
import CreditFabric.Prefix
import CreditFabric.Restart
import CreditFabric.History
import CreditFabric.Crc32c
import CreditFabric.FileJournal
import CreditFabric.FileLog
import CreditFabric.TornTail
import CreditFabric.Budget
import CreditFabric.Accounts
import CreditFabric.Era
import CreditFabric.Deployment
import CreditFabric.Isolation
import CreditFabric.Operator
import CreditFabric.StateDigest
import CreditFabric.Liveness
import CreditFabric.Window
import CreditFabric.Windowed
import CreditFabric.Retry
import CreditFabric.ReplayStep
import CreditFabric.Determined
import CreditFabric.Restored
import CreditFabric.Mirror
import CreditFabric.Durable
import CreditFabric.Messages
import CreditFabric.Frame
import CreditFabric.Readback
import CreditFabric.BucketMachine
import CreditFabric.Damage
import CreditFabric.Faults
import CreditFabric.Survival
import CreditFabric.Installed
import CreditFabric.Client
import CreditFabric.Once
import CreditFabric.AttemptStream
import CreditFabric.InPlace
import CreditFabric.Placement
import CreditFabric.Persistence
import CreditFabric.Lineage
import CreditFabric.Tracking
import CreditFabric.Spending
import CreditFabric.Slots
import CreditFabric.Bounds
import CreditFabric.Reported
import CreditFabric.Transport
import CreditFabric.Telemetry
import CreditFabric.Sequences
import CreditFabric.Growth
import CreditFabric.Notes
import CreditFabric.SnapshotFile
import CreditFabric.Integrity
import CreditFabric.Alteration
import CreditFabric.CrcBurst
import CreditFabric.ViewCheck
import CreditFabric.LastEntries
import CreditFabric.Connections
import CreditFabric.Serving
import CreditFabric.Statistics
import CreditFabric.Retried
import CreditFabric.Stored
import CreditFabric.OnFile
import CreditFabric.Process
import CreditFabric.Fences
import CreditFabric.Tenures
import CreditFabric.Lib.Chain
import CreditFabric.Rearrangement
import CreditFabric.Identities
import CreditFabric.Recall
import CreditFabric.Reuse
import CreditFabric.Lib.Shared
import CreditFabric.Polling
import CreditFabric.Sessions
import CreditFabric.Lib.Serial
import CreditFabric.Bank
