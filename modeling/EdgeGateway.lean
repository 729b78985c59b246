import EdgeGateway.Lib.Machine
import EdgeGateway.Lib.Actors
import EdgeGateway.Lib.Countdown
import EdgeGateway.Lib.Mailbox
import EdgeGateway.Lib.Flow
import EdgeGateway.Lib.Order
import EdgeGateway.Lib.Work
import EdgeGateway.Lib.Shutdown
import EdgeGateway.Lib.Sql
import EdgeGateway.Lib.Keyed
import EdgeGateway.Lib.Statements
import EdgeGateway.Lib.Assoc
import EdgeGateway.Lib.Replay
import EdgeGateway.Lib.Replica
import EdgeGateway.Lib.Debounce
import EdgeGateway.Lib.Ledger
import EdgeGateway.Lib.TopicFilter
import EdgeGateway.Lib.Text
import EdgeGateway.Lib.Deltas
import EdgeGateway.Message.Domain
import EdgeGateway.Message.Service
import EdgeGateway.Message.Proto
import EdgeGateway.Message.Translation
import EdgeGateway.Network.Domain
import EdgeGateway.Database.Tables
import EdgeGateway.Database.Domain
import EdgeGateway.Database.Flush
import EdgeGateway.Database.Batches
import EdgeGateway.Database.Pops
import EdgeGateway.Database.Registry
import EdgeGateway.Database.Repository
import EdgeGateway.Network.Logic
import EdgeGateway.Network.Sync
import EdgeGateway.Network.Moves
import EdgeGateway.Network.Agreement
import EdgeGateway.Network.Cache
import EdgeGateway.Network.Registration
import EdgeGateway.Network.Topics
import EdgeGateway.Network.EventLog
import EdgeGateway.Message.Incoming
import EdgeGateway.Mqtt.Subscriptions
import EdgeGateway.Mqtt.Tracking
import EdgeGateway.Quorum
import EdgeGateway.Fsm.Domain
import EdgeGateway.Fsm.Modes
import EdgeGateway.Fsm.Logic
import EdgeGateway.Fsm.Runtime
import EdgeGateway.Fsm.Pending
import EdgeGateway.Fsm.Service
import EdgeGateway.Fsm.Epochs
import EdgeGateway.Fsm.Announced
import EdgeGateway.Fsm.Stuck
import EdgeGateway.Fsm.Timeouts
import EdgeGateway.Fsm.Blocking
import EdgeGateway.Fsm.Votes
import EdgeGateway.Fsm.Mirror
import EdgeGateway.Fsm.Phases
import EdgeGateway.Fsm.Rounds
import EdgeGateway.Fsm.Lag
import EdgeGateway.Fsm.Answers
import EdgeGateway.Fsm.Beats
import EdgeGateway.Fsm.Course
import EdgeGateway.Fsm.Bounds
import EdgeGateway.Fsm.Finish
import EdgeGateway.Grpc.Domain
import EdgeGateway.Grpc.Stream
import EdgeGateway.Heartbeat.Domain
import EdgeGateway.Heartbeat.Debounce
import EdgeGateway.Heartbeat.Tasks
import EdgeGateway.Heartbeat.Watchdog
import EdgeGateway.Heartbeat.Silence
import EdgeGateway.Firmware.Domain
import EdgeGateway.Firmware.Orders
import EdgeGateway.Firmware.Charges
import EdgeGateway.Firmware.Session
import EdgeGateway.Firmware.Finish
import EdgeGateway.Forward.Pipeline
import EdgeGateway.Forward.Conservation
import EdgeGateway.Forward.Drain
import EdgeGateway.Core.Domain
import EdgeGateway.Mqtt.Service
import EdgeGateway.Core.Gateway
import EdgeGateway.Core.Ready
import EdgeGateway.Core.Linkage
import EdgeGateway.Core.Notices
import EdgeGateway.Core.Acks
import EdgeGateway.Core.Waiting
import EdgeGateway.Core.Flows
import EdgeGateway.Core.Rest
import EdgeGateway.Network.Service
import EdgeGateway.Network.Deliveries
import EdgeGateway.Core.Shutdown
import EdgeGateway.Core.Epochs
import EdgeGateway.Core.Lifecycle
import EdgeGateway.Core.Uplink
import EdgeGateway.Metrics.Domain
import EdgeGateway.Metrics.Service
import EdgeGateway.System.Check
