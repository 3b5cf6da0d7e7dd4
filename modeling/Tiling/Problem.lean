import Tiling.Search.State

/-!
Problems: everything a search starts from. Before the search starts, tiles that show a
socket other than the boundary's towards the outside are taken away, and the cells that are
collapsed or lost a tile that way are queued.
-/

namespace Tiling

/-- A tiling problem. The first four settings must be given before a search can start. -/
structure Problem (κ τ σ π : Type) [Key κ] [Key σ] [Key π] where
  catalog : Catalog τ σ π
  board : Option (Board κ σ) := none
  adjacency : Option (κ → List (σ × Neighbour κ)) := none
  /-- The slot that meets a given slot across an edge. -/
  pairing : Option (σ → σ) := none
  /-- The socket that tiles must show towards the outside. -/
  boundarySocket : Option π := none
  weighting : Option (Weighting κ) := none
  draws : Draws := fun _ => 0
  /-- Whether the search is to show its work. -/
  showing : Bool := false

/-- A setting that must be given. -/
inductive Setting where
  | board
  | adjacency
  | pairing
  | boundarySocket
deriving DecidableEq

/-- Why a problem starts no search. -/
inductive ProblemError (κ : Type) where
  | missing (setting : Setting)
  /-- A cell has a candidate that is not in the catalog. -/
  | unknownTile (index : Nat) (cell : κ)
  /-- A cell starts without candidates. -/
  | unsatisfiable
deriving DecidableEq

/-- What comes of starting a search. -/
structure Start (κ σ : Type) [Key κ] [Key σ] where
  outcome : Except (Failure (ProblemError κ)) (Search κ σ)
  notices : List (Notice κ)

namespace Problem

variable {κ τ σ π : Type} [Key κ] [Key σ] [Key π]

/-- The problem with choices weighted as in its catalog. -/
def withCatalogWeights (problem : Problem κ τ σ π) : Problem κ τ σ π :=
  { problem with weighting := some fun tile _ => problem.catalog.weightOf tile }

/-- The first candidate, in cell order, that is past the end of the catalog. -/
def stray? (tileCount : Nat) (board : Board κ σ) : Option (Nat × κ) :=
  board.cells.entries.findSome? fun (id, cell) =>
    (cell.candidates.toList.find? fun tile => tileCount ≤ tile).map fun tile => (tile, id)

/-- The slots of a cell that face the outside. -/
def outward (cell : Cell κ σ) (adjacency : List (σ × Neighbour κ)) : List σ :=
  adjacency.filterMap fun
    | (slot, .boundary) => if cell.slots.contains slot then some slot else none
    | (_, .cell _) => none

/-- The candidates that show the socket on every one of the slots. -/
def showing? (catalog : Catalog τ σ π) (socket : π) (slots : List σ) (candidates : Candidates) :
    Except Fault Candidates :=
  candidates.toList.foldlM (fun set index => do
    let tile ← catalog.tile index
    if slots.all fun slot => tile.socket? slot = some socket then set.insertBelow index
    else return set) (.empty catalog.size)

/-- A cell without the candidates that do not meet the boundary, if it has any. -/
def trimmed? (catalog : Catalog τ σ π) (socket : π) (adjacency : List (σ × Neighbour κ))
    (cell : Cell κ σ) : Except Fault (Option (Cell κ σ)) :=
  match outward cell adjacency with
  | [] => .ok none
  | slots => do
    let allowed ← showing? catalog socket slots cell.candidates
    if allowed.count < cell.count then (cell.restrict allowed).map some else return none

/-- The cells that lose candidates to the boundary, in cell order, as they are afterwards. -/
def trimmedCells (catalog : Catalog τ σ π) (socket : π) (adjacency : κ → List (σ × Neighbour κ)) :
    List (κ × Cell κ σ) → Except Fault (List (κ × Cell κ σ))
  | [] => .ok []
  | (id, cell) :: rest => do
    let trimmed ← trimmed? catalog socket (adjacency id) cell
    let others ← trimmedCells catalog socket adjacency rest
    return match trimmed with
      | some cell => (id, cell) :: others
      | none => others

/-- The names of the collapsed cells in cell order, then those of the other changed cells. -/
def queue (board : Board κ σ) (changed : List κ) : List κ :=
  let collapsed := board.cells.entries.filterMap fun (id, cell) =>
    if cell.collapsed then some id else none
  collapsed ++ changed.filter fun id => id ∉ collapsed

/-- Starts a search on a board whose candidates are all in the catalog. -/
def begin (problem : Problem κ τ σ π) (board : Board κ σ)
    (adjacency : κ → List (σ × Neighbour κ)) (pairing : σ → σ) (boundarySocket : π) :
    Start κ σ :=
  let support := Support.ofCatalog problem.catalog pairing
  let notices := if support.isSymmetric pairing then [] else [Notice.asymmetricSupport]
  match trimmedCells problem.catalog boundarySocket adjacency board.cells.entries with
  | .error reason => ⟨.error (.fault reason), notices⟩
  | .ok changed =>
    let pending := queue board (changed.map (·.1))
    let board := changed.foldl (fun board (id, cell) => board.put id cell) board
    match board.cells.entries.find? fun (_, cell) => cell.count = 0 with
    | some (id, _) => ⟨.error (.error .unsatisfiable), notices ++ [.emptyCell id]⟩
    | none =>
      let start : Position κ σ := { board, entropy := .ofBoard problem.draws board }
      let search : Search κ σ :=
        { rules :=
            { tileCount := problem.catalog.size, support, adjacency
              weighting := problem.weighting, draws := problem.draws, start }
          position := start
          marks :=
            if problem.showing then some (board.cells.mapValues fun _ _ => Mark.plain) else none
          trail := .empty
          pending
          visit := none
          retry := none
          tally := {}
          drawn := Entropy.drawsForBoard board
          finished := false }
      ⟨.ok search, notices ++ [.ready board.size problem.catalog.size pending.length]⟩

/-- Starts a search. Missing settings are reported first, then candidates that are not in the
catalog, then cells without candidates. -/
def start (problem : Problem κ τ σ π) : Start κ σ :=
  match problem.board, problem.adjacency, problem.pairing, problem.boundarySocket with
  | none, _, _, _ => ⟨.error (.error (.missing .board)), []⟩
  | _, none, _, _ => ⟨.error (.error (.missing .adjacency)), []⟩
  | _, _, none, _ => ⟨.error (.error (.missing .pairing)), []⟩
  | _, _, _, none => ⟨.error (.error (.missing .boundarySocket)), []⟩
  | some board, some adjacency, some pairing, some boundarySocket =>
    match stray? problem.catalog.size board with
    | some (index, cell) => ⟨.error (.error (.unknownTile index cell)), []⟩
    | none => problem.begin board adjacency pairing boundarySocket

end Problem

end Tiling
