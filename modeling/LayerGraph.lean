import LayerGraph.Document.Edit
import LayerGraph.Main
import LayerGraph.Proofs.Wiring.Search
import LayerGraph.Proofs.Graph.Resolution
import LayerGraph.Proofs.NodeRules
import LayerGraph.Proofs.Wiring.Scheduling
import LayerGraph.Proofs.Graph.Structure
import LayerGraph.Proofs.Graph.Inference
import LayerGraph.Proofs.Validity
import LayerGraph.Proofs.DeclarationOrder
import LayerGraph.Proofs.EntryPoints
import LayerGraph.Proofs.Document.RoundTrip
import LayerGraph.Proofs.Weights
import LayerGraph.Proofs.Forms
import LayerGraph.Proofs.Arity
import LayerGraph.Proofs.Document.Grammar
import LayerGraph.Proofs.Graph.Cycle
import LayerGraph.Proofs.Leaf
import LayerGraph.Proofs.Parameters
import LayerGraph.Proofs.Service
import LayerGraph.Proofs.Graph.Levels
import LayerGraph.Proofs.Graph.Origins
import LayerGraph.Proofs.Shape.Product
import LayerGraph.Proofs.Shape.Window
import LayerGraph.Proofs.Document.Acceptance
import LayerGraph.Proofs.Graph.Defects
import LayerGraph.Proofs.Wiring.Renaming
import LayerGraph.Proofs.Renaming
import LayerGraph.Proofs.Graph.Assembly
import LayerGraph.Proofs.Graph.Naming
import LayerGraph.Proofs.Graph.Declarations
import LayerGraph.Proofs.Graph.Countdown
import LayerGraph.Proofs.Graph.Course
import LayerGraph.Proofs.Number.Reading
