import NexusSfu.Dataplane.Order
import NexusSfu.Srtp.Delivery
import NexusSfu.Api.Agreement
import NexusSfu.Orchestrator.Handshake
import NexusSfu.State.Replicas
import NexusSfu.Swim.Circulation
import NexusSfu.Swim.Cleanup
import NexusSfu.Swim.Peers
import NexusSfu.Swim.Replay
import NexusSfu.Swim.Safety
import NexusSfu.Dataplane.Binding
import NexusSfu.Orchestrator.Ssrcs
import NexusSfu.Srtp.Pinned
import NexusSfu.Swim.Removals
import NexusSfu.Dataplane.Shard.Wakeups
import NexusSfu.Ice.Walk
import NexusSfu.Orchestrator.Records
import NexusSfu.Orchestrator.Specs
import NexusSfu.Rtp.Compound
import NexusSfu.Rtp.Nack
import NexusSfu.Rtp.Readers
import NexusSfu.State.RoomIds
import NexusSfu.Dataplane.Parsers
import NexusSfu.Dataplane.Shard.Claimants
import NexusSfu.Dataplane.Shard.LinuxIo
import NexusSfu.Sdp.PayloadTypes
import NexusSfu.Signal.Accepting
import NexusSfu.State.GCounter
import NexusSfu.State.Interleaved
import NexusSfu.Swim.Codec
import NexusSfu.Swim.Queue
import NexusSfu.Swim.Refutation
import NexusSfu.Base.Reader
import NexusSfu.Codec.Av1
import NexusSfu.Dataplane.Buffers
import NexusSfu.Rtp.Remb
import NexusSfu.Dataplane.Shard.Threads
import NexusSfu.State.Stored
import NexusSfu.Transport.Segments
