import Mathlib.Data.List.Basic
import Tiling.Proofs.Search.Worklist

/-!
What a finished search has found. When a search is done every cell is collapsed, collapsed cells
support their neighbours, and no candidate was ever added, so the tiles left are a solution.
-/

namespace Tiling

variable {κ τ σ π : Type} [Key κ] [Key σ] [Key π]

namespace Board

variable {board : Board κ σ}

/-- The tile of each collapsed cell of a board. -/
def tileAt (board : Board κ σ) (id : κ) : Nat := ((board.get? id).bind Cell.tile?).getD 0

theorem collapsed_of_uncollapsed_eq_zero (none : board.uncollapsed = 0) {id : κ} {cell : Cell κ σ}
    (found : board.get? id = some cell) : cell.collapsed = true := by
  have listed : cell ∈ board.cells.values :=
    List.mem_map.mpr ⟨(id, cell), get?_eq_some_iff.mp found, rfl⟩
  simpa using List.countP_eq_zero.mp none cell listed

theorem mem_iff_eq_tileAt {id : κ} {cell : Cell κ σ} (found : board.get? id = some cell)
    (collapsed : cell.collapsed = true) (tile : Nat) :
    tile ∈ cell.candidates ↔ tile = board.tileAt id := by
  cases settled : cell.tile? with
  | none => simp [Cell.tile?_eq_none_iff.mp settled] at collapsed
  | some only =>
    have same : board.tileAt id = only := by simp [tileAt, found, settled]
    rw [same]
    exact Cell.tile?_eq_some_iff.mp settled tile

theorem assignment_of_collapsed {tiles : κ → Nat} (holds : board.Holds tiles)
    (collapsed : ∀ id cell, board.get? id = some cell → cell.collapsed = true) :
    board.assignment = board.cells.keys.map fun id => (id, tiles id) := by
  unfold assignment SortedMap.keys
  rw [List.map_map]
  apply List.filterMap_eq_map_iff_forall_eq_some.mpr
  intro entry listed
  have found : board.get? entry.1 = some entry.2 := get?_eq_some_iff.mpr listed
  have settled := Cell.tile?_of_mem (collapsed entry.1 entry.2 found)
    (holds entry.1 entry.2 found)
  simp [settled]

end Board

namespace Search

variable {constraints : Constraints κ τ σ π} {first search : Search κ σ}

/-- A search with nothing left to do has found a solution. -/
theorem Reaches.solution (starts : constraints.Starts first) (reaches : first.Reaches search)
    (idle : search.Idle)
    (collapsed : ∀ id cell, search.position.board.get? id = some cell → cell.collapsed = true) :
    constraints.Solution search.position.board.tileAt ∧
      ∀ id cell, constraints.board.get? id = some cell → ∀ slot other,
        (slot, .cell other) ∈ constraints.adjacency id → cell.slots.contains slot = true →
          (constraints.board.get? other).isSome = true := by
  have opens := starts.opens
  have settled := (opens.consistent.reaches opens.coherent reaches).settled idle
  obtain ⟨keys, given⟩ := reaches.given starts
  have left : ∀ id cell, constraints.board.get? id = some cell → ∃ after,
      search.position.board.get? id = some after ∧ after.slots = cell.slots ∧
        search.position.board.tileAt id ∈ after.candidates := by
    intro id cell found
    have present := (Board.isSome_of_keys_eq keys).mpr (Option.isSome_of_eq_some found)
    obtain ⟨after, held⟩ := Option.isSome_iff_exists.mp present
    obtain ⟨cell', found', slots, -⟩ := given id after held
    cases found.symm.trans found'
    exact ⟨after, held, slots, (Board.mem_iff_eq_tileAt held (collapsed id after held) _).mpr rfl⟩
  have serves : ∀ id cell, constraints.board.get? id = some cell → ∀ slot other,
      (slot, .cell other) ∈ constraints.adjacency id → cell.slots.contains slot = true →
        ∃ after, search.position.board.get? id = some after ∧
          search.rules.Serves search.position.board after slot other := by
    intro id cell found slot other arc own
    obtain ⟨after, held, slots, -⟩ := left id cell found
    refine ⟨after, held, settled id after held (collapsed id after held) slot other ⟨?_, ?_⟩⟩
    · rw [reaches.rules, opens.adjacency]
      exact arc
    · rw [slots]
      exact own
  refine ⟨⟨fun id cell found => ?_, ?_, ?_⟩, ?_⟩
  · obtain ⟨after, held, -, member⟩ := left id cell found
    obtain ⟨cell', found', -, candidates⟩ := given id after held
    cases found.symm.trans found'
    exact (candidates _ member).1
  · intro id cell found slot other arc own _
    obtain ⟨after, held, target, allowed, facing, across, supported⟩ :=
      serves id cell found slot other arc own
    rw [reaches.rules, opens.support] at across
    have member := (Board.mem_iff_eq_tileAt facing (collapsed other target facing) _).mpr rfl
    obtain ⟨tile, candidate, meets⟩ :=
      (Support.mem_acrossAny_ofCatalog across _).mp (supported _ member)
    have same := (Board.mem_iff_eq_tileAt held (collapsed id after held) tile).mp candidate
    rw [← same]
    exact meets
  · intro id cell found slot arc own
    obtain ⟨after, held, -, member⟩ := left id cell found
    obtain ⟨cell', found', -, candidates⟩ := given id after held
    cases found.symm.trans found'
    exact (candidates _ member).2 slot arc own
  · intro id cell found slot other arc own
    obtain ⟨after, held, target, allowed, facing, -⟩ := serves id cell found slot other arc own
    exact (Board.isSome_of_keys_eq keys).mp (Option.isSome_of_eq_some facing)

/-- A finished search has collapsed every cell, and the tiles of the cells are a solution. -/
theorem solution_of_done (starts : constraints.Starts first) (steps : Nat)
    (snapshot : Snapshot κ σ)
    (done : (first.afterSteps steps).step.outcome = .ok (.done snapshot)) :
    ∃ tiles,
      snapshot.position.board.assignment = constraints.board.cells.keys.map
        (fun id => (id, tiles id)) ∧
      (∀ id cell, snapshot.position.board.get? id = some cell → cell.collapsed = true) ∧
      constraints.Solution tiles ∧
      ∀ id cell, constraints.board.get? id = some cell → ∀ slot other,
        (slot, .cell other) ∈ constraints.adjacency id → cell.slots.contains slot = true →
          (constraints.board.get? other).isSome = true := by
  obtain ⟨reaches, last, quiets, idle, uncollapsed, same⟩ := reaches_of_done done
  have reaches := reaches.quiets quiets
  have collapsed : ∀ id cell, last.position.board.get? id = some cell →
      cell.collapsed = true := fun id cell =>
    Board.collapsed_of_uncollapsed_eq_zero uncollapsed
  obtain ⟨solution, present⟩ := reaches.solution starts idle collapsed
  rw [same, ← (reaches.given starts).1]
  refine ⟨_, ?_, collapsed, solution, present⟩
  apply Board.assignment_of_collapsed
  · intro id cell found
    exact (Board.mem_iff_eq_tileAt found (collapsed id cell found) _).mpr rfl
  · exact collapsed

/-- The search turns back once before it is done: it settles the second cell on the tile of the
first one, and then on the other. -/
theorem solution_of_done_oneSided :
    ∃ first snapshot tiles, Constraints.oneSided.Starts first ∧
      (first.afterSteps 2).step.Reports (.rolledBack 1) ∧
      (first.afterSteps 4).step.outcome = .ok (.done snapshot) ∧
      snapshot.position.board.assignment = [(0, tiles 0), (1, tiles 1)] ∧
      Constraints.oneSided.Solution tiles := by
  have computed : ((Constraints.oneSided.problem none (fun _ => 0) false).start.outcome.toOption.any
      fun first => (first.turnWithin 8 2).any (·.event? = some (.rolledBack 1)) &&
        (first.turnWithin 8 4).any Turn.isDone) = true := by decide +kernel
  obtain ⟨first, starts, computed⟩ := Constraints.exists_starts computed
  obtain ⟨back, ended⟩ := Bool.and_eq_true_iff.mp computed
  obtain ⟨snapshot, done⟩ := Turn.exists_of_isDone (of_turnWithin ended)
  obtain ⟨tiles, assignment, -, solution, -⟩ := solution_of_done starts 4 snapshot done
  exact ⟨first, snapshot, tiles, starts,
    Turn.reports_iff.mpr (of_decide_eq_true (of_turnWithin back)), done, assignment, solution⟩

end Search

end Tiling
