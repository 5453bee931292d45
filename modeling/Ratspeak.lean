import Ratspeak.Library.FiniteMap
import Ratspeak.Library.Runs
import Ratspeak.Library.Text
import Ratspeak.Library.Bytes
import Ratspeak.Rrc
import Ratspeak.Library.Chunks
import Ratspeak.Hub.State
import Ratspeak.Hub.Turn
import Ratspeak.Hub.Registry
import Ratspeak.Hub.Membership
import Ratspeak.Hub.Commands
import Ratspeak.Hub.Relay
import Ratspeak.Hub.Admin
import Ratspeak.Hub.Service
import Ratspeak.Library.Roll
import Ratspeak.Hub.Moves
import Ratspeak.Hub.Handlers
import Ratspeak.Hub.Procedures
import Ratspeak.Hub.Events
import Ratspeak.Library.Ledger
import Ratspeak.Hub.Admission
import Ratspeak.Hub.Restart
import Ratspeak.Hub.Uploads
import Ratspeak.Hub.Integrity
import Ratspeak.Hub.Descent
import Ratspeak.Hub.Leases
import Ratspeak.Hub.LeaseRuns
import Ratspeak.Hub.Rosters
import Ratspeak.Hub.Refinement
import Ratspeak.Hub.Access
import Ratspeak.Hub.Bans
import Ratspeak.Hub.Index
import Ratspeak.Hub.Tokens
import Ratspeak.Hub.TokenWalk
import Ratspeak.Hub.TokenRuns
import Ratspeak.Hub.Policies
import Ratspeak.Hub.Coherence
import Ratspeak.Hub.Frames
import Ratspeak.Library.Programs
import Ratspeak.Library.Bits
import Ratspeak.Library.Lzss
import Ratspeak.Delta.Applier
import Ratspeak.Delta.Safety
import Ratspeak.Delta.Meaning
import Ratspeak.Delta.Refinement
import Ratspeak.Delta.Resume
import Ratspeak.Delta.Create
import Ratspeak.Delta.Packing
import Ratspeak.Delta.Operations
import Ratspeak.Delta.RoundTrip
import Ratspeak.Update.Uploader
import Ratspeak.Update.Transfer
import Ratspeak.Database.Messages
import Ratspeak.Library.Lines
import Ratspeak.Client.Directory
import Ratspeak.Library.Transactions
import Ratspeak.Database.Admission
import Ratspeak.Database.Effects
import Ratspeak.Database.ExactlyOnce
import Ratspeak.Database.Quotas
import Ratspeak.Library.Tallies
import Ratspeak.Library.Retention
import Ratspeak.Database.History
import Ratspeak.Database.HistoryCeilings
import Ratspeak.Database.HistoryReads
import Ratspeak.Library.Mailbox
import Ratspeak.Client.HistoryWriter
import Ratspeak.Client.HistoryLedger
import Ratspeak.Client.HistoryCounts
import Ratspeak.Client.HistoryFlows
import Ratspeak.Client.HistoryDelivery
import Ratspeak.Library.Ogg
import Ratspeak.Voice.OggOpus
import Ratspeak.Voice.PhysicalStream
import Ratspeak.Voice.Streams
import Ratspeak.Voice.Reading
import Ratspeak.Voice.Recovery
import Ratspeak.Voice.RoundTrip
import Ratspeak.Rrc.Wire
import Ratspeak.Rrc.Cbor
import Ratspeak.Rrc.Codec
import Ratspeak.Library.JsonText
import Ratspeak.Activity.Schema
import Ratspeak.Activity.Gate
import Ratspeak.Activity.GateBarrier
import Ratspeak.Activity.GateRuns
import Ratspeak.Activity.Classified
import Ratspeak.Activity.Pseudonym
import Ratspeak.Library.Firsts
import Ratspeak.Activity.Assignments
import Ratspeak.Activity.Masking
import Ratspeak.Activity.MaskingRuns
import Ratspeak.Activity.Renaming
import Ratspeak.Activity.Privacy
import Ratspeak.Network.Ownership
import Ratspeak.Network.Transactions
import Ratspeak.Chat.Extension
import Ratspeak.Chat.RoundTrip
import Ratspeak.Delivery.Recovery
import Ratspeak.Delivery.RecoveryRuns
import Ratspeak.Share.Inbox
import Ratspeak.Share.InboxRuns
import Ratspeak.Library.TokenBucket
import Ratspeak.Update.Pacing
import Ratspeak.Library.Words
import Ratspeak.Update.Frame
import Ratspeak.Library.Tlv
import Ratspeak.Update.Status
import Ratspeak.Update.StatusCodec
import Ratspeak.Update.Observer
import Ratspeak.Library.OggPages
import Ratspeak.Voice.PhysicalGrammar
import Ratspeak.Voice.PageScan
import Ratspeak.Voice.Timing
import Ratspeak.Library.Deliveries
import Ratspeak.Voice.Playback
import Ratspeak.Library.Selection
import Ratspeak.Propagation.AutoSelect
import Ratspeak.Propagation.Agreement
import Ratspeak.Library.Loops
import Ratspeak.Library.Window
import Ratspeak.Activity.Ring
import Ratspeak.Activity.RingEviction
import Ratspeak.Activity.RingRuns
import Ratspeak.Hub.EvidenceText
import Ratspeak.Hub.Evidence
import Ratspeak.Hub.EvidenceRuns
import Ratspeak.Delivery.PathResponse
import Ratspeak.Delivery.PathResponseRuns
import Ratspeak.Client.Greeting
import Ratspeak.Client.Session
import Ratspeak.Library.Traces
import Ratspeak.Client.SessionSteps
import Ratspeak.Client.SessionMoves
import Ratspeak.Client.SessionHandles
import Ratspeak.Client.SessionTurns
import Ratspeak.Client.SessionWaits
import Ratspeak.Client.SessionRooms
import Ratspeak.Client.SessionOrder
import Ratspeak.Client.SessionRuns
import Ratspeak.Client.SessionRejoins
import Ratspeak.Hub.Notices
import Ratspeak.Hub.RosterPackets
import Ratspeak.Library.MessagePack
import Ratspeak.Library.Overlay
import Ratspeak.Database.Suppression
import Ratspeak.Database.SuppressionCodec
import Ratspeak.Database.SuppressionRuns
import Ratspeak.Database.SuppressionStore
import Ratspeak.Identities.Prune
import Ratspeak.Identities.KnownIdentities
import Ratspeak.Identities.PruneRuns
import Ratspeak.Identities.PruneRecovery
import Ratspeak.Identities.PruneOutcome
