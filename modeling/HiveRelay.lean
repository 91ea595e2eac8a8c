import HiveRelay.Wal.RecoveryScan
import HiveRelay.Wal.CrashSafety
import HiveRelay.Store.KeyLockTable
import HiveRelay.Cell.Lifecycle
import HiveRelay.Cell.Quiesce
import HiveRelay.Cell.StagingRuns
import HiveRelay.Inbox.Quotas
import HiveRelay.Stream.FlowControl
import HiveRelay.Stream.CoreOpenIndexes
import HiveRelay.Stream.ForwardRoutes
import HiveRelay.Pow.Issuer
import HiveRelay.Pow.Sandbox
import HiveRelay.Descriptor.Calls
import HiveRelay.Quota.Tombstones
import HiveRelay.Quota.Exclusion
import HiveRelay.Stream.RouteScope
import HiveRelay.Outbox.Quotas
import HiveRelay.Persistence.Durability
import HiveRelay.Circuit.Accounting
import HiveRelay.Capacity.Ledger
import HiveRelay.Eviction.Sweep
import HiveRelay.Fork.Detector
import HiveRelay.Custody.Status
import HiveRelay.Seed.Replay
import HiveRelay.Seed.Unseed
import HiveRelay.Client.Durability
import HiveRelay.Client.Intent
import HiveRelay.Wal.FrameImage
import HiveRelay.Bandwidth.Receipts
import HiveRelay.Saves.Coalesced
import HiveRelay.Store.HashLock
import HiveRelay.Dispatch.Framing
import HiveRelay.Ipc.Receipts
import HiveRelay.Codec.ResultSizes
import HiveRelay.Inbox.Lifecycle
