import CoppiceWallet.Keystone.Completion
import CoppiceWallet.Lib.Run
import CoppiceWallet.Migration.DeletionBarrier
import CoppiceWallet.Migration.OperationProgress
import CoppiceWallet.Names.BatchRuns
import CoppiceWallet.Names.Holdings
import CoppiceWallet.Names.OperationWindows
import CoppiceWallet.Names.StaleWrites
import CoppiceWallet.NetworkPrivacy.RoutePolicy
import CoppiceWallet.Outbox.Attempts
import CoppiceWallet.Planner.FinishTotal
import CoppiceWallet.Proposals.InputLocks
import CoppiceWallet.SecureStore.MnemonicMigration
import CoppiceWallet.SecureStore.RotationRuns
import CoppiceWallet.Planner.StatusGate
import CoppiceWallet.Store.AnchorBuckets
import CoppiceWallet.Store.AnchorRetention
import CoppiceWallet.Store.ExpiryBuckets
import CoppiceWallet.Store.PreparationHeights
import CoppiceWallet.Store.ReceiptReplay
import CoppiceWallet.Store.RecoveryLadder
import CoppiceWallet.Store.SignedSchedule
import CoppiceWallet.Store.SigningPhase
import CoppiceWallet.SyncControl.StopRequests
import CoppiceWallet.SyncEngine.WitnessChecks
import CoppiceWallet.Voting.HotkeyRuns
import CoppiceWallet.Lib.Permits
import CoppiceWallet.Lib.Async
import CoppiceWallet.Lib.Contracts
import CoppiceWallet.Swap.Intents
import CoppiceWallet.Swap.Operations
import CoppiceWallet.Swap.Deposits
import CoppiceWallet.Swap.Ledgers
import CoppiceWallet.Swap.Holding
import CoppiceWallet.Swap.Refreshes
import CoppiceWallet.Swap.Checkpoints
import CoppiceWallet.Swap.Broadcasts
import CoppiceWallet.Swap.DepositRuns
import CoppiceWallet.Store.ScheduleSlots
import CoppiceWallet.Store.ScheduleTargets
import CoppiceWallet.Proposals.OrderedBroadcast
import CoppiceWallet.Lib.Selection
import CoppiceWallet.Proposals.ReservedSelection
import CoppiceWallet.Lib.Matching
import CoppiceWallet.Activity.History
import CoppiceWallet.Activity.Details
import CoppiceWallet.Lib.Groups
import CoppiceWallet.Activity.FundingSteps
import CoppiceWallet.Activity.Assembly
import CoppiceWallet.Lib.CyclicSweep
import CoppiceWallet.Receive.UtxoRefresh
import CoppiceWallet.Receive.UtxoCoverage
import CoppiceWallet.Lib.ByteRecords
import CoppiceWallet.Keystone.CompactSignatures
import CoppiceWallet.Lib.Bisection
import CoppiceWallet.Keystone.SigningRounds
import CoppiceWallet.Outbox.Rescheduling
import CoppiceWallet.Lib.RoundRobin
import CoppiceWallet.Outbox.Rotation
import CoppiceWallet.Receive.ReceiveAddresses
import CoppiceWallet.Receive.RefreshPass
import CoppiceWallet.Lib.Gather
import CoppiceWallet.Receive.RefreshRuns
import CoppiceWallet.Lib.SeenCaches
import CoppiceWallet.Mempool.Observer
import CoppiceWallet.Mempool.Announcements
import CoppiceWallet.Mempool.Reach
import CoppiceWallet.Lib.TopologicalOrder
import CoppiceWallet.Lib.Lists
import CoppiceWallet.Proposals.ResubmissionOrder
import CoppiceWallet.Proposals.ResubmissionPass
import CoppiceWallet.Proposals.Resubmission
import CoppiceWallet.SummaryCache.Cache
import CoppiceWallet.SummaryCache.Steps
import CoppiceWallet.SummaryCache.CacheRuns
import CoppiceWallet.SummaryCache.SingleFlight
import CoppiceWallet.Lib.DisjointRanges
import CoppiceWallet.ScanQueue.Prune
import CoppiceWallet.Quotes.Responses
import CoppiceWallet.Zec.Amounts
import CoppiceWallet.Zec.Codec
import CoppiceWallet.Zec.Renderings
import CoppiceWallet.Lib.BinaryFloats
import CoppiceWallet.Zip321.PaymentRequest
import CoppiceWallet.Zip321.Settings
import CoppiceWallet.Zip321.Payments
import CoppiceWallet.Zip321.Errors
import CoppiceWallet.Zip321.Requests
import CoppiceWallet.Swap.Evidence
import CoppiceWallet.Voting.ShareDelivery
import CoppiceWallet.Voting.ShareRuns
import CoppiceWallet.Polling.SyncNotifier
import CoppiceWallet.Polling.Coverage
import CoppiceWallet.Failover.Endpoints
import CoppiceWallet.Failover.Runs
import CoppiceWallet.Lib.Rest
import CoppiceWallet.Planner.Maximal
import CoppiceWallet.SyncControl.Progress
