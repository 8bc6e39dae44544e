import RmwEcal.Codec.LittleEndian
import RmwEcal.Codec.Basic
import RmwEcal.Codec.Framing
import RmwEcal.Codec.PrefixFree
import RmwEcal.Codec.Text
import RmwEcal.Codec.Occurrence
import RmwEcal.Shared.StringFunctions
import RmwEcal.Transition.System
import RmwEcal.Dynamic.Introspection
import RmwEcal.Dynamic.Memory
import RmwEcal.Dynamic.Content
import RmwEcal.Dynamic.TypeInfo
import RmwEcal.Dynamic.Packing
import RmwEcal.Dynamic.Wire
import RmwEcal.Dynamic.Serializer
import RmwEcal.Dynamic.Overlay
import RmwEcal.Dynamic.Deserializer
import RmwEcal.Dynamic.Language
import RmwEcal.Dynamic.Settled
import RmwEcal.Dynamic.Restoring
import RmwEcal.Dynamic.Templates
import RmwEcal.Dynamic.Transfer
import RmwEcal.Dynamic.Plain
import RmwEcal.Dynamic.Extent
import RmwEcal.Dynamic.Framing
import RmwEcal.Dynamic.TemplateFrames
import RmwEcal.Dynamic.Sample
import RmwEcal.Dynamic.RoundTrip
import RmwEcal.Dynamic.Requirements
import RmwEcal.Dynamic.Reuse
import RmwEcal.Dynamic.FastPath
import RmwEcal.Dynamic.Refusal
import RmwEcal.Dynamic.Allocation
import RmwEcal.Dynamic.Bounds
import RmwEcal.Dynamic.TypeNames
import RmwEcal.Shared.Graph
import RmwEcal.Shared.PhantomNodes
import RmwEcal.Shared.Qos
import RmwEcal.Shared.EndpointInfo
import RmwEcal.Shared.Compatibility
import RmwEcal.Shared.RosArray
import RmwEcal.Shared.NamesAndTypes
import RmwEcal.Shared.TopicListing
import RmwEcal.Shared.ServiceListing
import RmwEcal.Shared.HalfFilled
import RmwEcal.Shared.NodeQueries
import RmwEcal.Transition.Mailbox
import RmwEcal.Shared.Subscriber
import RmwEcal.Shared.Client
import RmwEcal.Shared.Service
import RmwEcal.Shared.StopAndWait
import RmwEcal.Shared.FailedCalls
import RmwEcal.Shared.EventOwnership
import RmwEcal.Shared.EventCount
import RmwEcal.Shared.HandOver
import RmwEcal.Shared.Takes
import RmwEcal.Shared.World
import RmwEcal.Shared.Correlation
import RmwEcal.Transition.Lock
import RmwEcal.Shared.WaitSet
import RmwEcal.Shared.Wakeup
import RmwEcal.Shared.Timeout
import RmwEcal.Shared.Trailer
import RmwEcal.Shared.TakeCalls
import RmwEcal.Shared.TakeSequence
import RmwEcal.Shared.Answering
import RmwEcal.Shared.Stranded
import RmwEcal.Shared.Lifetime
import RmwEcal.Transition.Threads
import RmwEcal.Shared.Deadlock
import RmwEcal.Dynamic.Interop
import RmwEcal.Dynamic.UniqueReading
import RmwEcal.Transition.Heap
import RmwEcal.Shared.Handles
import RmwEcal.Shared.Ownership
import RmwEcal.Shared.Residue
import RmwEcal.Shared.LiveGraph
import RmwEcal.Shared.TidyRuns
import RmwEcal.Shared.TypeSupport
import RmwEcal.Transition.Channel
import RmwEcal.Shared.Topic
import RmwEcal.Shared.TypedWorld
import RmwEcal.Transition.Custody
import RmwEcal.Shared.Buffers
import RmwEcal.Shared.BufferLifetime
import RmwEcal.Shared.ExactlyOnce
import RmwEcal.Shared.Whereabouts
import RmwEcal.Shared.Completion
