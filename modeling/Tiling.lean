import Tiling.Decimal.Literal
import Tiling.Decimal.Text
import Tiling.Document.JsonText
import Tiling.Draws.Congruential
import Tiling.Draws.Seeded
import Tiling.Kit.Load
import Tiling.Main
import Tiling.Meter
import Tiling.Name
import Tiling.Problem
import Tiling.Proofs.Boundary
import Tiling.Proofs.Conflicts
import Tiling.Proofs.Grid
import Tiling.Proofs.Kit
import Tiling.Proofs.Meter
import Tiling.Proofs.OwnSockets
import Tiling.Proofs.Search.Changes
import Tiling.Proofs.Search.Completeness
import Tiling.Proofs.Search.Contracts
import Tiling.Proofs.Search.Draws
import Tiling.Proofs.Search.Ending
import Tiling.Proofs.Search.Fixpoint
import Tiling.Proofs.Search.History
import Tiling.Proofs.Search.Rollback
import Tiling.Proofs.Search.Showing
import Tiling.Proofs.Search.Termination
import Tiling.Proofs.Search.WellFormed
import Tiling.Proofs.Symmetry
import Tiling.Proofs.TurnedSupport
import Tiling.Proofs.Weights
import Tiling.Support
import Tiling.Text.Listing
import Tiling.Text.Message
import Tiling.Text.Quoted
import Tiling.Tile.Turn
import Tiling.Proofs.Projection
import Tiling.Proofs.Lowest
