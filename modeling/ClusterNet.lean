import ClusterNet.Bench.Channel
import ClusterNet.Bench.Clerk
import ClusterNet.Bench.Cluster
import ClusterNet.Bench.Connection
import ClusterNet.Bench.Consensus
import ClusterNet.Bench.Listener
import ClusterNet.Bench.Pool
import ClusterNet.Consensus.Catalogue
import ClusterNet.Json.Address
import ClusterNet.Main
import ClusterNet.Proofs.IpText
import ClusterNet.Report.Consensus
import ClusterNet.Report.Daemon
import ClusterNet.Report.Node
import ClusterNet.Report.PubSub
import ClusterNet.Proofs.Frame
import ClusterNet.Proofs.Calls
import ClusterNet.Proofs.ChannelMoves
import ClusterNet.Proofs.Correlation
import ClusterNet.Proofs.Lossy
import ClusterNet.Proofs.Flow
import ClusterNet.Proofs.Exchange
import ClusterNet.Proofs.Unbroken
import ClusterNet.Proofs.PoolMoves
import ClusterNet.Proofs.Transparency
import ClusterNet.Proofs.PoolLines
import ClusterNet.Proofs.PoolCalls
import ClusterNet.Proofs.Exclusivity
import ClusterNet.Proofs.Forgotten
import ClusterNet.Proofs.GroupNews
import ClusterNet.Proofs.GroupSteps
import ClusterNet.Proofs.QuietGroups
import ClusterNet.Proofs.Bookkeeping
import ClusterNet.Proofs.Threads
import ClusterNet.Proofs.Swarms
import ClusterNet.Proofs.Convergence
import ClusterNet.Proofs.Network
import ClusterNet.Proofs.LocalCalls
import ClusterNet.Proofs.Awaiting
import ClusterNet.Proofs.Resting
import ClusterNet.Proofs.Concord
import ClusterNet.Proofs.Publishing
import ClusterNet.Proofs.Lifecycle
import ClusterNet.Proofs.Overlap
import ClusterNet.Proofs.Lanes
import ClusterNet.Proofs.Tickets
import ClusterNet.Proofs.Conduit
import ClusterNet.Proofs.Lines
import ClusterNet.Proofs.Turns
import ClusterNet.Proofs.Errands
import ClusterNet.Proofs.NearCalls
import ClusterNet.Proofs.Dwindling
import ClusterNet.Proofs.BothWays
import ClusterNet.Proofs.Documents
import ClusterNet.Proofs.Changing
import ClusterNet.Proofs.Peers
import ClusterNet.Proofs.Passages
import ClusterNet.Proofs.Tending
import ClusterNet.Proofs.Stopping
import ClusterNet.Proofs.Pressure
import ClusterNet.Proofs.ServedNames
import ClusterNet.Proofs.PackedEntries
import ClusterNet.Proofs.Checksums
import ClusterNet.Proofs.SealedEntries
import ClusterNet.Proofs.Intake
import ClusterNet.Proofs.Sending
import ClusterNet.Proofs.Tapes
import ClusterNet.Proofs.Recording
import ClusterNet.Proofs.Outlets
import ClusterNet.Proofs.Answers
import ClusterNet.Proofs.LastCalls
import ClusterNet.Proofs.Deadlines
import ClusterNet.Proofs.FairTurns
import ClusterNet.Proofs.Numbering
import ClusterNet.Proofs.Shares
import ClusterNet.Proofs.Tidings
import ClusterNet.Proofs.Lives
import ClusterNet.Proofs.Breakdowns
import ClusterNet.Proofs.Attachments
import ClusterNet.Proofs.Restarts
import ClusterNet.Proofs.FailedStarts
import ClusterNet.Proofs.Departures
import ClusterNet.Proofs.Headcount
import ClusterNet.Proofs.PrintedAddresses
import ClusterNet.Proofs.Endpoints
import ClusterNet.Proofs.InPlace
import ClusterNet.Proofs.LengthFields
import ClusterNet.Proofs.CanonicalForms
import ClusterNet.Proofs.Deliveries
import ClusterNet.Proofs.ReaderIds
import ClusterNet.Proofs.Greetings
import ClusterNet.Proofs.Meetings
