import TypeDiagram.Codec.Basic
import TypeDiagram.Codec.Record
import TypeDiagram.Decimal.Shortest
import TypeDiagram.Decl.Basic
import TypeDiagram.Decl.Member
import TypeDiagram.Diagram.Basic
import TypeDiagram.Diagram.Exploration
import TypeDiagram.Diagram.Extraction
import TypeDiagram.Diagram.Neighbours
import TypeDiagram.Dictionary
import TypeDiagram.Document.Basic
import TypeDiagram.Document.Fault
import TypeDiagram.Error
import TypeDiagram.Inference.Basic
import TypeDiagram.Inference.Filter
import TypeDiagram.Inference.Matching
import TypeDiagram.Log
import TypeDiagram.Proofs.Layers
import TypeDiagram.Proofs.Walks
import TypeDiagram.Settings
import TypeDiagram.Text.Blank
import TypeDiagram.Text.Outline
import TypeDiagram.Text.Quoted
import TypeDiagram.Proofs.Inference
import TypeDiagram.Proofs.Restriction
import TypeDiagram.Proofs.History
import TypeDiagram.Proofs.Neighbourhood
import TypeDiagram.Proofs.Composition
import TypeDiagram.Proofs.Induced
import TypeDiagram.Proofs.Locality
import TypeDiagram.Proofs.Discovery
import TypeDiagram.Proofs.RoundTrip
import TypeDiagram.Proofs.Renaming
import TypeDiagram.Proofs.Horizon
import TypeDiagram.Proofs.Reordering
import TypeDiagram.Proofs.Changes
import TypeDiagram.Proofs.Depth
import TypeDiagram.Proofs.Components
import TypeDiagram.Proofs.Merging
import TypeDiagram.Proofs.Modes
import TypeDiagram.Proofs.QualifiedNames
import TypeDiagram.Proofs.Monotonicity
import TypeDiagram.Proofs.Queries
import TypeDiagram.Proofs.BuildLog
import TypeDiagram.Proofs.Unused
import TypeDiagram.Proofs.Noninterference
import TypeDiagram.Proofs.Conjunction
import TypeDiagram.Proofs.Worklist
import TypeDiagram.Proofs.Forms
import TypeDiagram.Proofs.Omissions
import TypeDiagram.Proofs.Surroundings
import TypeDiagram.Proofs.Arguments
