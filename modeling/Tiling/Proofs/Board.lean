import Tiling.Board

/-!
How boards compare. During a search the cells of a board keep their names and slots and change
their candidates only.
-/

namespace Tiling

variable {κ σ : Type} [Key κ] [Key σ]

namespace Cell

omit [Key κ] in
theorem observed_of_observe {cell after : Cell κ σ} {tile : Nat}
    (settled : cell.observe tile = .ok after) : after.observed = true := by
  unfold observe at settled
  split at settled
  · split at settled
    · cases settled
      rfl
    · cases settled
  · cases settled

omit [Key κ] in
theorem observed_of_restrict {cell after : Cell κ σ} {tiles : Candidates}
    (restricted : cell.restrict tiles = .ok after) : after.observed = false := by
  unfold restrict at restricted
  split at restricted
  · cases restricted
    rfl
  · cases restricted

omit [Key κ] in
theorem id_of_restrict {cell after : Cell κ σ} {tiles : Candidates}
    (restricted : cell.restrict tiles = .ok after) : after.id = cell.id := by
  unfold restrict at restricted
  split at restricted
  · cases restricted
    rfl
  · cases restricted

end Cell

namespace Board

/-- Whether an assignment lies within the candidates of every cell. -/
def Holds (board : Board κ σ) (tiles : κ → Nat) : Prop :=
  ∀ id cell, board.get? id = some cell → tiles id ∈ cell.candidates

/-- A board with the cells of another one, each with the same slots and no other candidates. -/
structure Within (board first : Board κ σ) : Prop where
  keys : board.cells.keys = first.cells.keys
  cell : ∀ id cell, board.get? id = some cell →
    ∃ given, first.get? id = some given ∧ cell.slots = given.slots ∧
      ∀ tile ∈ cell.candidates, tile ∈ given.candidates

/-- A board with the cells of another one, each with the same candidates. -/
structure Matches (board other : Board κ σ) : Prop where
  keys : board.cells.keys = other.cells.keys
  cell : ∀ id cell, board.get? id = some cell → ∃ facing, other.get? id = some facing ∧
    ∀ tile, tile ∈ cell.candidates ↔ tile ∈ facing.candidates

/-- No cell is without candidates. -/
def Viable (board : Board κ σ) : Prop :=
  ∀ id cell, board.get? id = some cell → ∃ tile, tile ∈ cell.candidates

theorem isSome_of_keys_eq {board first : Board κ σ} {id : κ}
    (keys : board.cells.keys = first.cells.keys) :
    (board.get? id).isSome = true ↔ (first.get? id).isSome = true := by
  have present : ∀ board : Board κ σ, (board.get? id).isSome = true ↔ id ∈ board.cells.keys := by
    intro board
    rw [SortedMap.mem_keys_iff, Option.isSome_iff_exists]
    rfl
  rw [present board, present first, keys]

theorem size_eq_of_keys_eq {board first : Board κ σ}
    (keys : board.cells.keys = first.cells.keys) : board.size = first.size := by
  rw [size, size, ← SortedMap.length_keys, ← SortedMap.length_keys, keys]

theorem Within.refl (board : Board κ σ) : board.Within board :=
  ⟨rfl, fun _ cell found => ⟨cell, found, rfl, fun _ member => member⟩⟩

theorem Within.trans {first second third : Board κ σ} (earlier : first.Within second)
    (later : second.Within third) : first.Within third := by
  refine ⟨earlier.keys.trans later.keys, fun id cell found => ?_⟩
  obtain ⟨middle, found, slots, candidates⟩ := earlier.cell id cell found
  obtain ⟨given, found, slots', candidates'⟩ := later.cell id middle found
  exact ⟨given, found, slots.trans slots', fun tile member =>
    candidates' tile (candidates tile member)⟩

theorem Within.matches {board other : Board κ σ} (within : board.Within other)
    (conversely : other.Within board) : board.Matches other := by
  refine ⟨within.keys, fun id cell found => ?_⟩
  obtain ⟨facing, found', -, candidates⟩ := within.cell id cell found
  obtain ⟨own, found'', -, candidates'⟩ := conversely.cell id facing found'
  cases found.symm.trans found''
  exact ⟨facing, found', fun tile => ⟨candidates tile, candidates' tile⟩⟩

variable {board : Board κ σ} {id : κ} {target cell : Cell κ σ}

theorem get?_put_self (found : board.get? id = some target) (cell : Cell κ σ) :
    (board.put id cell).get? id = some cell := by
  simp [found]

theorem get?_put_of_ne {other : κ} (differ : id ≠ other) (board : Board κ σ) (cell : Cell κ σ) :
    (board.put id cell).get? other = board.get? other := by
  simp [differ]

theorem within_put (found : board.get? id = some target) (slots : cell.slots = target.slots)
    (candidates : ∀ tile ∈ cell.candidates, tile ∈ target.candidates) :
    (board.put id cell).Within board := by
  refine ⟨board.keys_put id cell, fun other after held => ?_⟩
  by_cases same : id = other
  · subst same
    rw [get?_put_self found cell] at held
    cases held
    exact ⟨target, found, slots, candidates⟩
  · rw [get?_put_of_ne same] at held
    exact ⟨after, held, rfl, fun _ member => member⟩

theorem Viable.put (viable : board.Viable) (left : ∃ tile, tile ∈ cell.candidates) :
    (board.put id cell).Viable := by
  intro other after held
  by_cases same : id = other
  · subst same
    rw [get?_put, if_pos rfl] at held
    obtain ⟨_, -, rfl⟩ := Option.map_eq_some_iff.mp held
    exact left
  · exact viable other after ((get?_put_of_ne same board cell).symm.trans held)

/-- A board stays within another one of which a cell loses only candidates that it lacks. -/
theorem Within.put {smaller : Board κ σ} (within : smaller.Within board)
    (found : board.get? id = some target) (slots : cell.slots = target.slots)
    (kept : ∀ own, smaller.get? id = some own → ∀ tile ∈ own.candidates, tile ∈ cell.candidates) :
    smaller.Within (board.put id cell) := by
  refine ⟨within.keys.trans (board.keys_put id cell).symm, fun other own held => ?_⟩
  obtain ⟨given, found', slots', candidates⟩ := within.cell other own held
  by_cases same : id = other
  · subst same
    cases found.symm.trans found'
    exact ⟨cell, get?_put_self found cell, slots'.trans slots.symm, kept own held⟩
  · exact ⟨given, (get?_put_of_ne same board cell).trans found', slots', candidates⟩

theorem holds_put (found : board.get? id = some target)
    (candidates : ∀ tile ∈ cell.candidates, tile ∈ target.candidates) (tiles : κ → Nat) :
    (board.put id cell).Holds tiles ↔ board.Holds tiles ∧ tiles id ∈ cell.candidates := by
  constructor
  · intro holds
    have own := holds id cell (get?_put_self found cell)
    refine ⟨fun other held found' => ?_, own⟩
    by_cases same : id = other
    · subst same
      cases found.symm.trans found'
      exact candidates _ own
    · exact holds other held ((get?_put_of_ne same board cell).trans found')
  · rintro ⟨holds, own⟩ other held found'
    by_cases same : id = other
    · subst same
      rw [get?_put_self found cell] at found'
      cases found'
      exact own
    · rw [get?_put_of_ne same] at found'
      exact holds other held found'

end Board

end Tiling
