import ShardedDelivery.Channel.Json
import ShardedDelivery.Config.Json
import ShardedDelivery.Message.Json
import ShardedDelivery.Pool.Settle
import ShardedDelivery.Scripted
import ShardedDelivery.Store.Json
import ShardedDelivery.Proofs.Plan.Patience
import ShardedDelivery.Proofs.Plan.Phases
import ShardedDelivery.Proofs.Policy
import ShardedDelivery.Proofs.Pool.Run
import ShardedDelivery.Proofs.Pool.Move
import ShardedDelivery.Proofs.Pool.Staff
import ShardedDelivery.Proofs.Pool.Trail
import ShardedDelivery.Proofs.Pool.Positions
import ShardedDelivery.Proofs.Pool.Progress
import ShardedDelivery.Proofs.Pool.Places
import ShardedDelivery.Proofs.Pool.Shares
import ShardedDelivery.Proofs.Pool.HandOff
import ShardedDelivery.Proofs.Pool.Protocol
import ShardedDelivery.Proofs.Pool.Journal
import ShardedDelivery.Proofs.Pool.Order
import ShardedDelivery.Proofs.Isolation
import ShardedDelivery.Proofs.Plan.Lockstep
import ShardedDelivery.Proofs.Pool.Abreast
import ShardedDelivery.Proofs.Pool.Refinement
import ShardedDelivery.Proofs.Conservation
import ShardedDelivery.Proofs.Rollback
import ShardedDelivery.Proofs.Containment
import ShardedDelivery.Proofs.Pool.Pressure
import ShardedDelivery.Proofs.Pool.Desertion
import ShardedDelivery.Proofs.Pool.Abandonment
import ShardedDelivery.Proofs.Receipts
import ShardedDelivery.Proofs.Shift
import ShardedDelivery.Proofs.InFlight
import ShardedDelivery.Proofs.Pool.Sequences
import ShardedDelivery.Proofs.Plan.Notes
import ShardedDelivery.Proofs.Crew
import ShardedDelivery.Proofs.Ledger
import ShardedDelivery.Proofs.Metrics
import ShardedDelivery.Proofs.Alarms
import ShardedDelivery.Proofs.Seclusion
import ShardedDelivery.Proofs.Staleness
import ShardedDelivery.Proofs.Pool.Accounts
import ShardedDelivery.Proofs.Pool.Totals
import ShardedDelivery.Proofs.Plan.Bare
import ShardedDelivery.Proofs.Contents
import ShardedDelivery.Proofs.Pool.Contents
import ShardedDelivery.Proofs.Channel
import ShardedDelivery.Proofs.Json.Grammar
import ShardedDelivery.Proofs.Json.Token
import ShardedDelivery.Proofs.Json.Written
import ShardedDelivery.Proofs.Json.Derivation
import ShardedDelivery.Proofs.Json.Fields
import ShardedDelivery.Proofs.Json.Settings
import ShardedDelivery.Proofs.Json.DeadLetters
import ShardedDelivery.Proofs.Json.Canonical
import ShardedDelivery.Ring.Shared
import ShardedDelivery.Proofs.Ring.Residue
import ShardedDelivery.Proofs.Ring.Signals
import ShardedDelivery.Proofs.Plan.Increments
import ShardedDelivery.Proofs.Rounds
import ShardedDelivery.Proofs.Cancellation
import ShardedDelivery.Proofs.Channel.Bytes
import ShardedDelivery.Proofs.Channel.Forms
import ShardedDelivery.Proofs.Channel.Fold
import ShardedDelivery.Proofs.Json.Channels
import ShardedDelivery.Proofs.History
import ShardedDelivery.Proofs.Commutation
import ShardedDelivery.Proofs.Slots.Loose
import ShardedDelivery.Proofs.Slots.Depot
