import ThunderboltVerbs.Lib.System
import ThunderboltVerbs.Lib.Tally
import ThunderboltVerbs.Lib.LinkedList
import ThunderboltVerbs.Lib.Journal
import ThunderboltVerbs.Lib.Keyed
import ThunderboltVerbs.Lib.LittleEndian
import ThunderboltVerbs.Lib.Ledger
import ThunderboltVerbs.Lib.Holding
import ThunderboltVerbs.Lib.Subsequence
import ThunderboltVerbs.Proto.NativeData
import ThunderboltVerbs.Proto.Frames
import ThunderboltVerbs.Proto.Codec
import ThunderboltVerbs.Proto.Wire
import ThunderboltVerbs.DataPath.Conservation
import ThunderboltVerbs.DataPath.StartCredit
import ThunderboltVerbs.DataPath.Backpressure
import ThunderboltVerbs.DataPath.Reservation
import ThunderboltVerbs.DataPath.WorkConserving
import ThunderboltVerbs.DataPath.Balance
import ThunderboltVerbs.Reliability.ExactlyOnce
import ThunderboltVerbs.Control.Publish
import ThunderboltVerbs.Control.Safety
import ThunderboltVerbs.Control.Window
import ThunderboltVerbs.Control.Exchange
import ThunderboltVerbs.Verbs.Unwind
import ThunderboltVerbs.Verbs.Refinement
import ThunderboltVerbs.Verbs.Reap
import ThunderboltVerbs.Verbs.Complete
import ThunderboltVerbs.SendQueue.Slots
import ThunderboltVerbs.SendQueue.Answers
import ThunderboltVerbs.SendQueue.PsnOrder
import ThunderboltVerbs.SendQueue.PostingOrder
import ThunderboltVerbs.SendQueue.Heads
import ThunderboltVerbs.SendQueue.Retries
import ThunderboltVerbs.Receive.Order
import ThunderboltVerbs.Receive.Recovery
import ThunderboltVerbs.Receive.Agreement
import ThunderboltVerbs.Receive.Headers
import ThunderboltVerbs.Receive.ReadResponse
import ThunderboltVerbs.Receive.Access
import ThunderboltVerbs.Receive.Ageing
import ThunderboltVerbs.Receive.Scatter
import ThunderboltVerbs.Receive.Snapshot
import ThunderboltVerbs.Receive.Reassembly
import ThunderboltVerbs.Verbs.ReadResps
import ThunderboltVerbs.Receive.ReadAck
import ThunderboltVerbs.Receive.Grids
import ThunderboltVerbs.Receive.Equivalence
import ThunderboltVerbs.Driver.Qp
import ThunderboltVerbs.Driver.Device
import ThunderboltVerbs.Driver.Confinement
import ThunderboltVerbs.Driver.Domains
import ThunderboltVerbs.Driver.Reset
import ThunderboltVerbs.Driver.Flush
import ThunderboltVerbs.Driver.Waiting
import ThunderboltVerbs.Tbnet.Consistency
import ThunderboltVerbs.Apple.Resync
import ThunderboltVerbs.Apple.Messages
import ThunderboltVerbs.Apple.Window
import ThunderboltVerbs.Apple.RingRefinement
import ThunderboltVerbs.Reliability.CompletionOrder
import ThunderboltVerbs.Reliability.AckDelivery
import ThunderboltVerbs.Config.Compat
import ThunderboltVerbs.Config.Link
import ThunderboltVerbs.Driver.PlacementRuns
import ThunderboltVerbs.Receive.FragmentShape
import ThunderboltVerbs.Config.Writes
import ThunderboltVerbs.Receive.RawStream
import ThunderboltVerbs.Driver.RailList
import ThunderboltVerbs.Verbs.CompletionQueue
import ThunderboltVerbs.Driver.RecvRing
import ThunderboltVerbs.Receive.Slices
import ThunderboltVerbs.Driver.RailIdentity
import ThunderboltVerbs.Lib.Blocks
import ThunderboltVerbs.Lib.Counted
import ThunderboltVerbs.DataPath.Framing
import ThunderboltVerbs.DataPath.FramingMoves
import ThunderboltVerbs.DataPath.FramingRuns
import ThunderboltVerbs.DataPath.PageStream
import ThunderboltVerbs.Receive.PageWalk
import ThunderboltVerbs.Receive.StreamDelivery
import ThunderboltVerbs.Driver.RecvCredit
import ThunderboltVerbs.Driver.Services
import ThunderboltVerbs.Lib.DelayedWork
import ThunderboltVerbs.SendQueue.TimeoutRuns
import ThunderboltVerbs.Tbnet.Messages
import ThunderboltVerbs.Tbnet.HandshakeRuns
import ThunderboltVerbs.Driver.QpLifetimeRuns
