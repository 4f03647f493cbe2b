import Multidomain.Address.Ethernet
import Multidomain.Address.Ip
import Multidomain.Child.Address
import Multidomain.Child.Exchange
import Multidomain.Config.Basic
import Multidomain.Config.CommandLine
import Multidomain.Config.File
import Multidomain.Element.Basic
import Multidomain.Element.DeviceId
import Multidomain.Flow.Descriptor
import Multidomain.Flow.Hop
import Multidomain.Flow.Rule
import Multidomain.Json.Basic
import Multidomain.Json.Reader
import Multidomain.Json.Record
import Multidomain.Json.Writer
import Multidomain.Main
import Multidomain.Mapping.LinkBook
import Multidomain.Mapping.PortBook
import Multidomain.Mapping.Registry
import Multidomain.Orchestration.Abstraction
import Multidomain.Orchestration.Notice
import Multidomain.Orchestration.Provision
import Multidomain.Orchestration.Segment
import Multidomain.Orchestration.Session
import Multidomain.Orchestration.TaskPool
import Multidomain.Orchestration.Uptake
import Multidomain.Proofs.Address.Internet
import Multidomain.Proofs.Address.Spelling
import Multidomain.Proofs.Address.Written
import Multidomain.Proofs.Child.HostPart
import Multidomain.Proofs.Child.OwnPort
import Multidomain.Proofs.Child.VirtualDevice
import Multidomain.Proofs.Flow.Forwarding
import Multidomain.Proofs.Flow.Hop
import Multidomain.Proofs.Flow.Slots
import Multidomain.Proofs.Json.Canonical
import Multidomain.Proofs.Json.Passage
import Multidomain.Proofs.Json.Plain
import Multidomain.Proofs.Json.RoundTrip
import Multidomain.Proofs.Mapping.Aliases
import Multidomain.Proofs.Mapping.Backers
import Multidomain.Proofs.Mapping.Folding
import Multidomain.Proofs.Mapping.InPlace
import Multidomain.Proofs.Mapping.LinkBook
import Multidomain.Proofs.Mapping.PortBook
import Multidomain.Proofs.Mapping.PortHistory
import Multidomain.Proofs.Mapping.Registry
import Multidomain.Proofs.Orchestration.Attribution
import Multidomain.Proofs.Orchestration.BothWays
import Multidomain.Proofs.Orchestration.CarriedHosts
import Multidomain.Proofs.Orchestration.Clocks
import Multidomain.Proofs.Orchestration.CompleteDiscovery
import Multidomain.Proofs.Orchestration.Contents
import Multidomain.Proofs.Orchestration.Countdown
import Multidomain.Proofs.Orchestration.Delivery
import Multidomain.Proofs.Orchestration.Discovery
import Multidomain.Proofs.Orchestration.Effect
import Multidomain.Proofs.Orchestration.ExplicitLinks
import Multidomain.Proofs.Orchestration.ExplicitNames
import Multidomain.Proofs.Orchestration.ExplicitRuns
import Multidomain.Proofs.Orchestration.Footing
import Multidomain.Proofs.Orchestration.GivenIds
import Multidomain.Proofs.Orchestration.History
import Multidomain.Proofs.Orchestration.ImplicitRuns
import Multidomain.Proofs.Orchestration.LinkReports
import Multidomain.Proofs.Orchestration.LinkRuns
import Multidomain.Proofs.Orchestration.LinkState
import Multidomain.Proofs.Orchestration.Meaning
import Multidomain.Proofs.Orchestration.Mirror
import Multidomain.Proofs.Orchestration.MixedHistory
import Multidomain.Proofs.Orchestration.OneAbstraction
import Multidomain.Proofs.Orchestration.OrderedDiscovery
import Multidomain.Proofs.Orchestration.OwnIds
import Multidomain.Proofs.Orchestration.OwnRules
import Multidomain.Proofs.Orchestration.PartialPaths
import Multidomain.Proofs.Orchestration.Planning
import Multidomain.Proofs.Orchestration.PortGrants
import Multidomain.Proofs.Orchestration.Redelivery
import Multidomain.Proofs.Orchestration.SeededHistory
import Multidomain.Proofs.Orchestration.Segment
import Multidomain.Proofs.Orchestration.SharedNames
import Multidomain.Proofs.Orchestration.SkippedElements
import Multidomain.Proofs.Orchestration.SteadyChild
import Multidomain.Proofs.Orchestration.Stretches
import Multidomain.Proofs.Orchestration.SubRequests
import Multidomain.Proofs.Orchestration.TaskPool
import Multidomain.Proofs.Orchestration.Trees
import Multidomain.Proofs.Orchestration.Turns
import Multidomain.Proofs.Orchestration.VirtualLinks
import Multidomain.Proofs.Orchestration.WellFormedIds
import Multidomain.Proofs.Rest.Effect
import Multidomain.Proofs.Rest.Refusal
import Multidomain.Proofs.Roster
import Multidomain.Proofs.Text.Numeral
import Multidomain.Proofs.Topology.Attachment
import Multidomain.Proofs.Topology.Devices
import Multidomain.Proofs.Topology.Difference
import Multidomain.Proofs.Topology.Hosts
import Multidomain.Proofs.Topology.Interlinks
import Multidomain.Proofs.Topology.Names
import Multidomain.Proofs.Topology.Parallels
import Multidomain.Proofs.Topology.Replay
import Multidomain.Proofs.Topology.Retelling
import Multidomain.Proofs.Topology.Route
import Multidomain.Proofs.Topology.ShortestRoute
import Multidomain.Proofs.Topology.Symmetry
import Multidomain.Proofs.Topology.Watch
import Multidomain.Proofs.Wire.Described
import Multidomain.Proofs.Wire.Document
import Multidomain.Proofs.Wire.Entry
import Multidomain.Proofs.Wire.RoundTrip
import Multidomain.Rest.Dialogue
import Multidomain.Rest.Route
import Multidomain.Rest.Service
import Multidomain.Roster
import Multidomain.Table
import Multidomain.Text.Numeral
import Multidomain.Text.Shortest
import Multidomain.Toml.Basic
import Multidomain.Toml.Reader
import Multidomain.Toml.Scalar
import Multidomain.Toml.Writer
import Multidomain.Topology.Overview
import Multidomain.Topology.Route
import Multidomain.Topology.Seed
import Multidomain.Topology.Store
import Multidomain.Wire.Command
import Multidomain.Wire.Document
import Multidomain.Wire.Entry
