import Stencil.Catalog
import Stencil.CommandLine.Folder
import Stencil.Main
import Stencil.Proofs.Block
import Stencil.Proofs.Walk
import Stencil.Proofs.Block.Meaning
import Stencil.Proofs.Policy
import Stencil.Proofs.Markers
import Stencil.Proofs.Pieces
import Stencil.Proofs.Scan
import Stencil.Proofs.Branches
import Stencil.Proofs.Dependence
import Stencil.Proofs.Scan.Lossless
import Stencil.Proofs.Scan.Boundary
import Stencil.Proofs.Escape
import Stencil.Proofs.Block.Blame
import Stencil.Proofs.Catalog
import Stencil.Proofs.Markers.Grammar
import Stencil.Proofs.Markers.Whole
import Stencil.Proofs.Markers.Runs
import Stencil.Proofs.Scan.Locality
import Stencil.Proofs.Conditions
import Stencil.Proofs.Conditions.Grammar
import Stencil.Proofs.Conditions.Quotes
import Stencil.Proofs.Conditions.Spacing
import Stencil.Proofs.Conditions.Logic
import Stencil.Proofs.Conditions.Literals
import Stencil.Proofs.Conditions.Declared
import Stencil.Proofs.Conditions.Comparisons
import Stencil.Proofs.Paths
import Stencil.Proofs.Block.Trace
import Stencil.Proofs.Variables
import Stencil.Proofs.Chains
import Stencil.Proofs.Scan.LineEnds
import Stencil.Proofs.Rounding
import Stencil.Proofs.Conditions.Integers
import Stencil.Proofs.Offsets
import Stencil.Proofs.Offsets.Condition
import Stencil.Proofs.Offsets.Markers
import Stencil.Proofs.Offsets.Reader
import Stencil.Proofs.Offsets.Scan
