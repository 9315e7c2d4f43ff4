import MicroRosAgent.Interleaving.Lts
import MicroRosAgent.Interleaving.Program
import MicroRosAgent.Interleaving.EchoRegister
import MicroRosAgent.Interleaving.ChangeFlag
import MicroRosAgent.Interleaving.Monitor
import MicroRosAgent.Interleaving.Mailbox
import MicroRosAgent.Interleaving.SharedTable
import MicroRosAgent.Interleaving.RelyGuarantee
import MicroRosAgent.Interleaving.Ownership
import MicroRosAgent.Text.Search
import MicroRosAgent.Text.Tokens
import MicroRosAgent.Text.Markup
import MicroRosAgent.GraphManager.Naming
import MicroRosAgent.GraphManager.Qos
import MicroRosAgent.GraphCache.Interface
import MicroRosAgent.GraphCache.NamesAndTypes
import MicroRosAgent.GraphCache.Reference
import MicroRosAgent.GraphCache.NodeTables
import MicroRosAgent.GraphManager.Operations
import MicroRosAgent.GraphManager.GhostParticipants
import MicroRosAgent.GraphManager.EndpointDiscovery
import MicroRosAgent.Utils.Demangle
import MicroRosAgent.Utils.TypeNames
import MicroRosAgent.Utils.Accesses
import MicroRosAgent.Files.Tree
import MicroRosAgent.Files.Paths
import MicroRosAgent.Generator.Profiles
import MicroRosAgent.Generator.Workspace
import MicroRosAgent.Generator.Collection
import MicroRosAgent.Generator.Document
import MicroRosAgent.Main
import MicroRosAgent.GraphManager.Publish
import MicroRosAgent.GraphManager.PublishedGraph
import MicroRosAgent.GraphManager.VanishingNodes
import MicroRosAgent.GraphManager.Publisher
import MicroRosAgent.GraphManager.Locking
import MicroRosAgent.GraphManager.DiscoveryReader
import MicroRosAgent.Agent.Callbacks
import MicroRosAgent.Agent.Effects
import MicroRosAgent.Agent.EntityPaths
import MicroRosAgent.Agent.LiveEntities
import MicroRosAgent.Agent.LostAssociations
import MicroRosAgent.Agent.Lifecycle
import MicroRosAgent.Agent.Registry
import MicroRosAgent.Agent.Mirror
import MicroRosAgent.Agent.Refinement
import MicroRosAgent.Agent.Concurrency
import MicroRosAgent.Agent.SampleOrder
import MicroRosAgent.Agent.Convergence
import MicroRosAgent.Agent.Provenance
import MicroRosAgent.Agent.DiscoveryWriters
import MicroRosAgent.Agent.WriterLifetimes
