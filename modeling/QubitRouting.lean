import QubitRouting.Cli.Program
import QubitRouting.Command.Document
import QubitRouting.Layout.Document
import QubitRouting.Main
import QubitRouting.Proofs.Layout
import QubitRouting.Topology.Document
import QubitRouting.Proofs.OddEven
import QubitRouting.Proofs.Move
import QubitRouting.Proofs.Segment
import QubitRouting.Proofs.Placement
import QubitRouting.Proofs.Checked
import QubitRouting.Proofs.Matching
import QubitRouting.Proofs.Topology
import QubitRouting.Proofs.RowMatching
import QubitRouting.Proofs.LineSort
import QubitRouting.Proofs.Synthesis
import QubitRouting.Proofs.Assignment
import QubitRouting.Proofs.Search
import QubitRouting.Proofs.Router
import QubitRouting.Proofs.Config
import QubitRouting.Proofs.Dispatch
import QubitRouting.Proofs.Session
import QubitRouting.Proofs.Order
import QubitRouting.Proofs.Command
import QubitRouting.Proofs.Legality
import QubitRouting.Proofs.Allocation
import QubitRouting.Proofs.Device
import QubitRouting.Proofs.Progress
import QubitRouting.Proofs.Completeness
import QubitRouting.Proofs.Neighbours
import QubitRouting.Proofs.Plan
import QubitRouting.Proofs.Accounting
import QubitRouting.Proofs.Straight
import QubitRouting.Proofs.SingleLine
import QubitRouting.Proofs.Interaction
import QubitRouting.Proofs.Verbatim
import QubitRouting.Proofs.Statistics
import QubitRouting.Proofs.Circuit
import QubitRouting.Proofs.Renaming.Mapper
import QubitRouting.Proofs.Machine.Mapper
import QubitRouting.Proofs.Depth
import QubitRouting.Proofs.HalfPass
import QubitRouting.Proofs.ChainSwaps
import QubitRouting.Proofs.Decomposition
import QubitRouting.Proofs.GridSwaps
import QubitRouting.Proofs.GridDepth
import QubitRouting.Proofs.Overtaking
import QubitRouting.Proofs.SegmentShape
import QubitRouting.Proofs.Greedy
import QubitRouting.Proofs.Reallocation
import QubitRouting.Proofs.Undisturbed
import QubitRouting.Proofs.Minimum
import QubitRouting.Proofs.LayoutOperations
import QubitRouting.Proofs.Table
import QubitRouting.Proofs.Installation
import QubitRouting.Proofs.Forwarding
import QubitRouting.Proofs.InPlace
import QubitRouting.Proofs.Snake
import QubitRouting.Proofs.Json.Token
import QubitRouting.Proofs.Json.Value
import QubitRouting.Proofs.Json.Record
import QubitRouting.Proofs.ConfigDocuments
import QubitRouting.Proofs.Documents
