import TensorDataflow.Layout.Broadcast
import TensorDataflow.Layout.Offset
import TensorDataflow.Decimal.Shortest
import TensorDataflow.Element.Render
import TensorDataflow.Json.Reader
import TensorDataflow.Json.Dim
import TensorDataflow.Engine.Config
import TensorDataflow.Machine.Basic
import TensorDataflow.Graph.Rounds
import TensorDataflow.Graph.Inference
import TensorDataflow.Graph.Validity
import TensorDataflow.Graph.Data
import TensorDataflow.Graph.Descriptor
import TensorDataflow.Engine.Registry
import TensorDataflow.Engine.Metrics
import TensorDataflow.Engine.Run
import TensorDataflow.Session.Engines
import TensorDataflow.Proofs.Graph.RunGate
import TensorDataflow.Proofs.Graph.Binding
import TensorDataflow.Proofs.Graph.OrderIndependence
import TensorDataflow.Proofs.Engine.Execution
import TensorDataflow.Proofs.Session.Holdings
import TensorDataflow.Proofs.Engine.Bias
import TensorDataflow.Proofs.Engine.Ownership
import TensorDataflow.Proofs.Engine.Residence
import TensorDataflow.Proofs.Session.Contexts
import TensorDataflow.Proofs.Session.Vintage
import TensorDataflow.Proofs.Graph.Agreement
import TensorDataflow.Proofs.Dim.Interchange
import TensorDataflow.Proofs.Text.Numerals
import TensorDataflow.Proofs.Toml.Lines
import TensorDataflow.Proofs.Engine.Settings
import TensorDataflow.Proofs.Library.Elementwise
import TensorDataflow.Proofs.Graph.Pointwise
import TensorDataflow.Proofs.Session.Switching
import TensorDataflow.Proofs.Device.Spacing
import TensorDataflow.Proofs.Graph.Migration
import TensorDataflow.Proofs.Library.Containment
import TensorDataflow.Proofs.Graph.Product
import TensorDataflow.Proofs.Layout.BroadcastValues
import TensorDataflow.Proofs.Graph.Rendering
import TensorDataflow.Proofs.Dim.Exactness
import TensorDataflow.Proofs.Layout.Strides
import TensorDataflow.Proofs.Session.Settlement
import TensorDataflow.Proofs.Engine.SizeGrammar
import TensorDataflow.Proofs.Graph.Normalisation
import TensorDataflow.Proofs.Graph.Transfers
import TensorDataflow.Proofs.Session.Construction
import TensorDataflow.Proofs.Machine.Ledger
