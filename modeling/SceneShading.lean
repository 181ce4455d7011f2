import SceneShading.Snapshot.Scene
import SceneShading.Snapshot.Wiring
import SceneShading.Proofs.Tree.Growth
import SceneShading.Proofs.Tree.Lineage
import SceneShading.Proofs.Tree.Meet
import SceneShading.Proofs.Tree.Tour
import SceneShading.Proofs.Tree.Shortest
import SceneShading.Proofs.Pipeline.History
import SceneShading.Proofs.Pipeline.Active
import SceneShading.Proofs.Pipeline.Resolution
import SceneShading.Proofs.Pipeline.Slots
import SceneShading.Proofs.Pipeline.Sharing
import SceneShading.Proofs.Pipeline.Device
import SceneShading.Proofs.Program.Serials
import SceneShading.Proofs.Program.Cache
import SceneShading.Proofs.Graph.Walk
import SceneShading.Proofs.Codegen.Emission
import SceneShading.Proofs.Source.Process
import SceneShading.Proofs.Program.Surface
import SceneShading.Proofs.Program.Geometry
import SceneShading.Proofs.Codegen.Compilation
import SceneShading.Proofs.Codegen.Renumbering
import SceneShading.Proofs.Source.Omission
import SceneShading.Proofs.Program.Complete
import SceneShading.Proofs.Program.Initialized
import SceneShading.Proofs.Program.Interface
import SceneShading.Proofs.Codegen.Comments
import SceneShading.Proofs.Graph.Referential
import SceneShading.Proofs.Graph.Rewiring
import SceneShading.Proofs.Program.Described
import SceneShading.Proofs.Program.Feeding
import SceneShading.Proofs.Program.Delivery
import SceneShading.Proofs.Pipeline.Drawing
import SceneShading.Proofs.Graph.Kinds
import SceneShading.Proofs.Program.Contents
import SceneShading.Proofs.Source.Definitions
import SceneShading.Proofs.Description.Agreement
import SceneShading.Proofs.Description.RoundTrip
import SceneShading.Proofs.Graph.Traversal
import SceneShading.Proofs.Source.Inclusion
import SceneShading.Proofs.Codegen.Filtering
import SceneShading.Proofs.Program.Filtering
import SceneShading.Proofs.Pipeline.Uploads
import SceneShading.Proofs.Bounds.Exact
import SceneShading.Proofs.Bounds.Expansion
import SceneShading.Proofs.Source.FiniteMap
import SceneShading.Proofs.Source.Order
import SceneShading.Proofs.Bounds.Hull
import SceneShading.Proofs.Bounds.Stretch
import SceneShading.Proofs.Graph.Naming
import SceneShading.Proofs.Description.Wiring
import SceneShading.Proofs.Description.Partial
import SceneShading.Proofs.Codegen.Totality
import SceneShading.Proofs.Graph.Typing
import SceneShading.Proofs.Program.Typing
import SceneShading.Proofs.Codegen.Arguments
import SceneShading.Proofs.Program.Arguments
import SceneShading.Proofs.Codegen.Snippets
import SceneShading.Proofs.Graph.Weaving
import SceneShading.Proofs.Program.Attributes
import SceneShading.Proofs.Codegen.MorphFunction
import SceneShading.Proofs.Program.Morphing
import SceneShading.Proofs.Codegen.Layout
import SceneShading.Proofs.Program.Leading
import SceneShading.Proofs.Source.Precision
import SceneShading.Proofs.Codegen.Notes
import SceneShading.Proofs.Program.Notes
import SceneShading.Proofs.Codegen.Locals
