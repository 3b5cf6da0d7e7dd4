import Tiling.Meter
import Tiling.Problem
import Tiling.Text.Label

/-!
Listings: the texts of tiles, cells, positions, steps and trails. A set of candidates is not
spelled out.
-/

namespace Tiling

variable {κ τ σ π : Type} [Key κ] [Key σ] [Key π] [Label κ] [Label τ] [Label σ] [Label π]

instance : Label Candidates := ⟨fun _ => "<set>"⟩

instance : Label (Tile τ σ π) := ⟨fun tile =>
  Label.record "Tile"
    [("id", label tile.id), ("sockets", label tile.sockets), ("plugs", label tile.plugs),
      ("weight", label tile.weight)]⟩

instance : Label (Cell κ σ) := ⟨fun cell =>
  Label.record "Cell"
    [("id", label cell.id), ("slots", label cell.slots), ("tile_map", label cell.candidates),
      ("collapsed", label cell.collapsed), ("observed", label cell.observed)]⟩

instance : Label (Board κ σ) := ⟨fun board => label board.cells⟩

instance : Label (Entropy κ) := ⟨fun entropy => label entropy.scores⟩

instance : Label Mark := ⟨Mark.name⟩

instance : Label (Decision κ σ) := ⟨fun made =>
  Label.partialRecord "CollapseEntry"
    [("cell", label made.cell), ("tile", label made.tile), ("tried", label made.tried),
      ("field", label made.after.board)]⟩

instance : Label (Narrowing κ σ) := ⟨fun made =>
  Label.partialRecord "UpdateEntry"
    [("source", label made.source), ("cell", label made.cell), ("tiles", label made.tiles),
      ("field", label made.after.board)]⟩

instance : Label (TrailEntry κ σ) := ⟨fun
  | .decision made => Label.wrapped "Collapse" (label made)
  | .narrowing made => Label.wrapped "Update" (label made)⟩

instance : Label (Trail κ σ) := ⟨fun trail => label trail.toList⟩

instance : Label Tally := ⟨fun tally =>
  Label.record "Stats"
    [("collapses", label tally.collapses), ("updates", label tally.updates),
      ("rollbacks", label tally.rollbacks)]⟩

instance : Label (Event κ) := ⟨fun
  | .collapsed cell tile =>
    Label.record "Collapsed" [("cell", label cell), ("tile", label tile)]
  | .updated source cell =>
    Label.record "Updated" [("source", label source), ("cell", label cell)]
  | .rolledBack cell => Label.record "RolledBack" [("cell", label cell)]
  | .inspected cell mark =>
    Label.record "Inspected" [("cell", label cell), ("tag", label mark)]
  | .finished => "Finished"⟩

instance : Label (Snapshot κ σ) := ⟨fun snapshot =>
  Label.record "Snapshot"
    [("event", label snapshot.event), ("field", label snapshot.position.board),
      ("entropy", label snapshot.position.entropy), ("debug", label snapshot.marks)]⟩

instance : Label (Step κ σ) := ⟨fun
  | .progress snapshot => Label.wrapped "Progress" (label snapshot)
  | .done snapshot => Label.wrapped "Done" (label snapshot)⟩

end Tiling
