import Tiling.Problem
import Tiling.Proofs.Board
import Tiling.Proofs.Support

/-!
Solutions of a tiling problem. What a solution is depends on the constraints of the problem alone,
and not on how tiles are chosen or on what a search shows.
-/

namespace Tiling

/-- What can be computed from a result holds of it, and shows that there is one. -/
theorem exists_ok_of_any {ε α : Type} {outcome : Except ε α} {holds : α → Bool}
    (computed : outcome.toOption.any holds = true) :
    ∃ result, outcome = .ok result ∧ holds result = true := by
  cases outcome with
  | error reason => cases computed
  | ok result => exact ⟨result, rfl, computed⟩

variable {κ τ σ π : Type} [Key κ] [Key σ] [Key π]

/-- The settings of a problem that say what its solutions are. -/
structure Constraints (κ τ σ π : Type) [Key κ] [Key σ] [Key π] where
  catalog : Catalog τ σ π
  board : Board κ σ
  adjacency : κ → List (σ × Neighbour κ)
  pairing : σ → σ
  boundarySocket : π

namespace Constraints

/-- A problem of these constraints. -/
def problem (constraints : Constraints κ τ σ π) (weighting : Option (Weighting κ)) (draws : Draws)
    (showing : Bool) : Problem κ τ σ π :=
  { catalog := constraints.catalog
    board := some constraints.board
    adjacency := some constraints.adjacency
    pairing := some constraints.pairing
    boundarySocket := some constraints.boundarySocket
    weighting, draws, showing }

/-- The searches that problems of these constraints start. -/
def Starts (constraints : Constraints κ τ σ π) (search : Search κ σ) : Prop :=
  ∃ weighting draws showing,
    (constraints.problem weighting draws showing).start.outcome = .ok search

theorem exists_starts {constraints : Constraints κ τ σ π} {holds : Search κ σ → Bool}
    (computed : ((constraints.problem none (fun _ => 0) false).start.outcome.toOption.any holds) =
      true) :
    ∃ search, constraints.Starts search ∧ holds search = true := by
  obtain ⟨search, started, held⟩ := exists_ok_of_any computed
  exact ⟨search, ⟨none, fun _ => 0, false, started⟩, held⟩

/-- A tile for each cell of the board, such that all constraints are met. -/
structure Solution (constraints : Constraints κ τ σ π) (tiles : κ → Nat) : Prop where
  candidate : ∀ id cell, constraints.board.get? id = some cell → tiles id ∈ cell.candidates
  neighbour : ∀ id cell, constraints.board.get? id = some cell → ∀ slot other,
    (slot, .cell other) ∈ constraints.adjacency id → cell.slots.contains slot = true →
    (constraints.board.get? other).isSome = true →
    constraints.catalog.meets constraints.pairing (tiles id) slot (tiles other) = true
  boundary : ∀ id cell, constraints.board.get? id = some cell → ∀ slot,
    (slot, .boundary) ∈ constraints.adjacency id → cell.slots.contains slot = true →
    constraints.catalog.shows (tiles id) slot constraints.boundarySocket = true

/-- Whether a tile meets what lies across one slot of a cell. -/
def met (constraints : Constraints κ τ σ π) (tiles : κ → Nat) (id : κ) :
    σ × Neighbour κ → Bool
  | (slot, .cell other) => (constraints.board.get? other).isNone ||
      constraints.catalog.meets constraints.pairing (tiles id) slot (tiles other)
  | (slot, .boundary) =>
    constraints.catalog.shows (tiles id) slot constraints.boundarySocket

theorem solution_iff {constraints : Constraints κ τ σ π} {tiles : κ → Nat} :
    constraints.Solution tiles ↔ ∀ entry ∈ constraints.board.cells.entries,
      tiles entry.1 ∈ entry.2.candidates ∧ ∀ arc ∈ constraints.adjacency entry.1,
        entry.2.slots.contains arc.1 = true → constraints.met tiles entry.1 arc = true := by
  constructor
  · rintro solution ⟨id, cell⟩ listed
    have found := Board.get?_eq_some_iff.mpr listed
    refine ⟨solution.candidate id cell found, ?_⟩
    rintro ⟨slot, other | _⟩ arc own
    · cases present : constraints.board.get? other with
      | none => simp [met, present]
      | some target =>
        simp [met, solution.neighbour id cell found slot other arc own (by simp [present])]
    · exact solution.boundary id cell found slot arc own
  · intro all
    have all : ∀ id cell, constraints.board.get? id = some cell → tiles id ∈ cell.candidates ∧
        ∀ arc ∈ constraints.adjacency id, cell.slots.contains arc.1 = true →
          constraints.met tiles id arc = true := fun id cell found =>
      all (id, cell) (Board.get?_eq_some_iff.mp found)
    refine ⟨fun id cell found => (all id cell found).1, ?_, ?_⟩
    · intro id cell found slot other arc own present
      have met := (all id cell found).2 _ arc own
      simpa [Constraints.met, Option.isNone_iff_eq_none, Option.isSome_iff_ne_none.mp present]
        using met
    · intro id cell found slot arc own
      exact (all id cell found).2 _ arc own

instance (constraints : Constraints κ τ σ π) (tiles : κ → Nat) :
    Decidable (constraints.Solution tiles) :=
  decidable_of_iff _ solution_iff.symm

/-- Two cells that may hold either of two tiles, where a tile meets only the other one. -/
def differing (adjacency : Nat → List (Nat × Neighbour Nat)) : Constraints Nat Nat Nat Nat where
  catalog :=
    { tiles :=
        [{ id := 0, sockets := .ofList [(0, 0)], plugs := .ofList [(0, .singleton 1)] },
          { id := 1, sockets := .ofList [(0, 1)], plugs := .ofList [(0, .singleton 0)] }]
      distinct := by decide }
  board := .ofCells [.ofCandidates 0 [0] (.full 2), .ofCandidates 1 [0] (.full 2)]
  adjacency
  pairing := id
  boundarySocket := 0

/-- Each of the two cells looks at the other. -/
def twoSided : Constraints Nat Nat Nat Nat := differing fun id => [(0, .cell (1 - id))]

/-- Only the second cell looks at the first. -/
def oneSided : Constraints Nat Nat Nat Nat :=
  differing fun id => if id = 1 then [(0, .cell 0)] else []

/-- The second cell looks at the first and at itself, from which it cannot differ. -/
def contradictory : Constraints Nat Nat Nat Nat :=
  differing fun id => if id = 1 then [(0, .cell 0), (0, .cell 1)] else []

end Constraints

/-- Whether an assignment agrees with every decision that stands. -/
def Trail.Agrees (trail : Trail κ σ) (tiles : κ → Nat) : Prop :=
  ∀ made ∈ trail.decisions, tiles made.cell = made.tile

end Tiling
