import DepthPrepass.Counters.Report
import DepthPrepass.Proofs.Expansion
import DepthPrepass.Proofs.LaneModes
import DepthPrepass.Proofs.Ledger
import DepthPrepass.Proofs.OrderedTests
import DepthPrepass.Proofs.Tiling
import DepthPrepass.Proofs.Confinement
import DepthPrepass.Proofs.DirectEvaluation
import DepthPrepass.Proofs.Dyadic
import DepthPrepass.Proofs.Encodings
import DepthPrepass.Proofs.Fans
import DepthPrepass.Proofs.Redrawing
import DepthPrepass.Proofs.Splitting
import DepthPrepass.Proofs.DepthUpdates
import DepthPrepass.Proofs.Complements
import DepthPrepass.Proofs.VertexOrder
import DepthPrepass.Proofs.HalfWordTriangles
import DepthPrepass.Proofs.Translation
import DepthPrepass.Proofs.RectangleFill
import DepthPrepass.Proofs.CheckedDecoding
import DepthPrepass.Proofs.Addressing
import DepthPrepass.Proofs.Stitching
import DepthPrepass.Proofs.WholeRectangles
import DepthPrepass.Proofs.Barycentric
import DepthPrepass.Proofs.Accuracy
import DepthPrepass.Proofs.FlatTriangles
