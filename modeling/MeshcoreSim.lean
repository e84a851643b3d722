import MeshcoreSim.Config
import MeshcoreSim.Lib.Run
import MeshcoreSim.Lib.Window
import MeshcoreSim.Airtime
import MeshcoreSim.Channel
import MeshcoreSim.Channel.Survival
import MeshcoreSim.Adversarial
import MeshcoreSim.Metrics
import MeshcoreSim.Tracer
import MeshcoreSim.Router
import MeshcoreSim.Router.Slices
import MeshcoreSim.Orchestrator
import MeshcoreSim.Router.Pruning
import MeshcoreSim.Router.Provenance
import MeshcoreSim.Router.Conservation
import MeshcoreSim.Router.Ledgers
import MeshcoreSim.Router.Tracing
import MeshcoreSim.Lib.ReadyQueue
import MeshcoreSim.Router.Listen
import MeshcoreSim.Router.HalfDuplex
import MeshcoreSim.NodeAgent
import MeshcoreSim.Orchestrator.Tables
import MeshcoreSim.Router.Phantoms
import MeshcoreSim.Router.Soundness
import MeshcoreSim.Router.StepOrder
import MeshcoreSim.Hex
import MeshcoreSim.SimNode
import MeshcoreSim.SimNode.LateAcks
import MeshcoreSim.SimNode.Tracking
import MeshcoreSim.SimNode.RoomNetwork
import MeshcoreSim.Lib.Utf8
import MeshcoreSim.Lib.Json
import MeshcoreSim.Lib.JsonTail
import MeshcoreSim.SimNode.EventLines
import MeshcoreSim.Lib.CString
import MeshcoreSim.NodeAgent.Commands
import MeshcoreSim.NodeAgent.PacketBytes
import MeshcoreSim.Deliveries
import MeshcoreSim.NodeAgent.Texts
import MeshcoreSim.Packet.Wire
import MeshcoreSim.TopologyFile
import MeshcoreSim.Lib.Sweep
import MeshcoreSim.Lib.Chunks
import MeshcoreSim.Nexthop
import MeshcoreSim.Nexthop.Table
import MeshcoreSim.Nexthop.Calls
import MeshcoreSim.Nexthop.Capacity
import MeshcoreSim.Nexthop.Routes
import MeshcoreSim.Nexthop.PathExchange
import MeshcoreSim.Channel.Verdicts
import MeshcoreSim.SimNode.Addressing
import MeshcoreSim.SimNode.Retries
import MeshcoreSim.Traffic
import MeshcoreSim.Orchestrator.Grace
import MeshcoreSim.Tracer.Calls
import MeshcoreSim.Tracer.ToDict
import MeshcoreSim.Tracer.Viewer
import MeshcoreSim.Lib.Tally
import MeshcoreSim.Tracer.Statistics
import MeshcoreSim.Geo
import MeshcoreSim.ImportTopology
import MeshcoreSim.ImportTopology.Names
import MeshcoreSim.ImportTopology.Edges
import MeshcoreSim.Airtime.Monotone
import MeshcoreSim.Traffic.InitialAdverts
import MeshcoreSim.SimRadio.BusyWindow
import MeshcoreSim.Lib.DelayBuffer
import MeshcoreSim.Adversarial.Replay
import MeshcoreSim.Packet.PathLen
import MeshcoreSim.Router.Corruption
import MeshcoreSim.Tracer.Flood
import MeshcoreSim.Nexthop.Eviction
import MeshcoreSim.NodeAgent.Buffers
import MeshcoreSim.NodeAgent.LineFraming
import MeshcoreSim.Lib.WordMixing
import MeshcoreSim.SimRNG
import MeshcoreSim.NodeAgent.Base64
import MeshcoreSim.SimNode.Escaping
import MeshcoreSim.Nexthop.AnyTable
import MeshcoreSim.ImportTopology.Caps
import MeshcoreSim.ImportTopology.Losses
import MeshcoreSim.Lib.FirstWins
import MeshcoreSim.Lib.Partial
import MeshcoreSim.FetchTopology
import MeshcoreSim.Tracer.Steps
import MeshcoreSim.Lib.BinaryRounding
import MeshcoreSim.Lib.Thresholds
import MeshcoreSim.AdaptiveDelay
import MeshcoreSim.AdaptiveDelay.Calls
import MeshcoreSim.AdaptiveDelay.Messages
import MeshcoreSim.AdaptiveDelay.Backoff
import MeshcoreSim.Tracer.NodeStats
import MeshcoreSim.Tracer.TraceStats
import MeshcoreSim.Router.Viewer
import MeshcoreSim.Lib.OrderStatistics
import MeshcoreSim.Deliveries.Summary
import MeshcoreSim.TopologyEditor
import MeshcoreSim.TopologyEditor.Runs
import MeshcoreSim.TopologyEditor.Saving
import MeshcoreSim.Lib.Way
import MeshcoreSim.Nexthop.Mesh
import MeshcoreSim.Nexthop.Ways
import MeshcoreSim.GridTopology
import MeshcoreSim.Orchestrator.Timeline
import MeshcoreSim.Orchestrator.Contacts
import MeshcoreSim.Orchestrator.Rounds
