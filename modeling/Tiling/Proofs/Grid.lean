import Mathlib.Data.Nat.ModEq
import Tiling.Grid

/-!
What the cells of a grid meet. Walking rows and columns and dividing numbers give the same
neighbours, which are the cells one step away, and stepping back leads home.
-/

namespace Tiling

/-- In a direction, the second place is one step from the first. -/
inductive Direction.Steps : Direction → Nat × Nat → Nat × Nat → Prop where
  | north (row column : Nat) : Steps .north (row + 1, column) (row, column)
  | east (row column : Nat) : Steps .east (row, column) (row, column + 1)
  | south (row column : Nat) : Steps .south (row, column) (row + 1, column)
  | west (row column : Nat) : Steps .west (row, column + 1) (row, column)

theorem Direction.Steps.opposite {direction : Direction} {place target : Nat × Nat}
    (steps : direction.Steps place target) : direction.opposite.Steps target place := by
  cases steps with
  | north row column => exact .south row column
  | east row column => exact .west row column
  | south row column => exact .north row column
  | west row column => exact .east row column

namespace Grid

section Numbers

variable {row column width : Nat}

private theorem place_div (below : column < width) : (row * width + column) / width = row := by
  rw [Nat.add_comm, Nat.add_mul_div_right _ _ (Nat.zero_lt_of_lt below), Nat.div_eq_of_lt below,
    Nat.zero_add]

private theorem place_mod (below : column < width) : (row * width + column) % width = column := by
  rw [Nat.add_comm, Nat.add_mul_mod_self_right, Nat.mod_eq_of_lt below]

private theorem walk_eq_map {α : Type} (height width : Nat) (visit : Nat → Nat → α) :
    ((List.range height).flatMap fun row => (List.range width).map (visit row)) =
      (List.range (height * width)).map fun id => visit (id / width) (id % width) := by
  induction height with
  | zero => simp
  | succ height ih =>
    rw [List.range_succ, List.flatMap_append, ih, Nat.succ_mul, List.range_add, List.map_append,
      List.flatMap_singleton, List.map_map]
    congr 1
    apply List.map_congr_left
    intro column listed
    have below : column < width := List.mem_range.mp listed
    simp only [Function.comp, place_div below, place_mod below]

end Numbers

variable {grid : Grid} {row column : Nat}

/-- Whether a place lies in the grid. -/
def Holds (grid : Grid) (place : Nat × Nat) : Prop :=
  place.1 < grid.height ∧ place.2 < grid.width

theorem number_lt (held : grid.Holds (row, column)) : grid.number row column < grid.size := by
  obtain ⟨inRow, inColumn⟩ := held
  calc row * grid.width + column
    _ < row * grid.width + grid.width := Nat.add_lt_add_left inColumn _
    _ = (row + 1) * grid.width := (Nat.succ_mul row grid.width).symm
    _ ≤ grid.height * grid.width := Nat.mul_le_mul_right _ inRow

theorem cellAt?_eq_some_iff {id : Nat} :
    grid.cellAt? row column = some id ↔ grid.Holds (row, column) ∧ id = grid.number row column := by
  unfold cellAt? Holds
  split <;> simp_all [eq_comm]

theorem beside?_eq_some_iff {direction : Direction} {target : Nat × Nat} :
    beside? row column direction = some target ↔ direction.Steps (row, column) target := by
  constructor
  · intro found
    cases direction with
    | north =>
      cases row with
      | zero => cases found
      | succ row =>
        cases found
        exact .north row column
    | east =>
      cases found
      exact .east row column
    | south =>
      cases found
      exact .south row column
    | west =>
      cases column with
      | zero => cases found
      | succ column =>
        cases found
        exact .west row column
  · intro steps
    cases steps <;> rfl

/-- A cell meets the cell one step away, if there is one. -/
theorem across_eq_cell_iff {direction : Direction} {other : Nat} :
    grid.across row column direction = .cell other ↔
      ∃ target, direction.Steps (row, column) target ∧ grid.Holds target ∧
        other = grid.number target.1 target.2 := by
  have found : grid.across row column direction = .cell other ↔
      ((beside? row column direction).bind fun place => grid.cellAt? place.1 place.2) =
        some other := by
    unfold across
    split
    · rename_i same
      rw [same]
      simp
    · rename_i none
      rw [none]
      simp
  rw [found, Option.bind_eq_some_iff]
  simp only [beside?_eq_some_iff, cellAt?_eq_some_iff]

theorem across_eq_boundary_iff {direction : Direction} :
    grid.across row column direction = .boundary ↔
      ¬ ∃ target, direction.Steps (row, column) target ∧ grid.Holds target := by
  cases met : grid.across row column direction with
  | cell other =>
    obtain ⟨target, steps, held, -⟩ := across_eq_cell_iff.mp met
    simp only [reduceCtorEq, false_iff, not_not]
    exact ⟨target, steps, held⟩
  | boundary =>
    simp only [true_iff]
    rintro ⟨target, steps, held⟩
    cases met.symm.trans (across_eq_cell_iff.mpr ⟨target, steps, held, rfl⟩)

/-- What a cell meets in a direction meets the cell in the opposite one. -/
theorem across_opposite {direction : Direction} {target : Nat × Nat}
    (held : grid.Holds (row, column)) (steps : direction.Steps (row, column) target) :
    grid.across target.1 target.2 direction.opposite = .cell (grid.number row column) :=
  across_eq_cell_iff.mpr ⟨(row, column), steps.opposite, held, rfl⟩

theorem mem_neighboursAt {direction : Direction} {neighbour : Neighbour Nat} :
    (direction, neighbour) ∈ grid.neighboursAt row column ↔
      grid.across row column direction = neighbour := by
  cases direction <;> simp [neighboursAt, Direction.all, eq_comm]

/-- By division, a cell meets what it meets by walking. -/
theorem neighboursOf_number (held : grid.Holds (row, column)) :
    grid.neighboursOf (grid.number row column) = grid.neighboursAt row column := by
  obtain ⟨inRow, inColumn⟩ := held
  have north : grid.across row column .north =
      if 0 < row then .cell (grid.number (row - 1) column) else .boundary := by
    cases row with
    | zero => rfl
    | succ above =>
      have inside : above < grid.height ∧ column < grid.width := ⟨by omega, inColumn⟩
      simp [across, beside?, cellAt?, inside]
  have east : grid.across row column .east =
      if column + 1 < grid.width then .cell (grid.number row (column + 1)) else .boundary := by
    by_cases within : column + 1 < grid.width <;> simp [across, beside?, cellAt?, inRow, within]
  have south : grid.across row column .south =
      if row + 1 < grid.height then .cell (grid.number (row + 1) column) else .boundary := by
    by_cases within : row + 1 < grid.height <;> simp [across, beside?, cellAt?, inColumn, within]
  have west : grid.across row column .west =
      if 0 < column then .cell (grid.number row (column - 1)) else .boundary := by
    cases column with
    | zero => rfl
    | succ before =>
      have inside : row < grid.height ∧ before < grid.width := ⟨inRow, by omega⟩
      simp [across, beside?, cellAt?, inside]
  simp only [neighboursAt, Direction.all, List.map_cons, List.map_nil, north, east, south, west]
  rw [neighboursOf, number, place_div inColumn, place_mod inColumn]

theorem table_eq (grid : Grid) :
    grid.table = ((List.range grid.size).map fun id =>
      grid.neighboursAt (id / grid.width) (id % grid.width)).toArray := by
  unfold table
  rw [walk_eq_map]
  rfl

theorem table_number (held : grid.Holds (row, column)) :
    grid.table[grid.number row column]? = some (grid.neighboursAt row column) := by
  rw [table_eq, List.getElem?_toArray, List.getElem?_map, List.getElem?_range (number_lt held)]
  simp only [Option.map_some, number, place_div held.2, place_mod held.2]

/-- The table has an entry for each cell, numbered so that division finds its row and column. An
entry lists the four directions in order, each with the cell one step away, or with the boundary
where there is none. Stepping back leads home, and division by the width gives the same entry. -/
theorem neighbours_exact (grid : Grid) :
    grid.table.size = grid.size ∧
    ∀ row column, grid.Holds (row, column) →
      grid.number row column < grid.size ∧
      grid.number row column / grid.width = row ∧
      grid.number row column % grid.width = column ∧
      ∃ neighbours, grid.table[grid.number row column]? = some neighbours ∧
        (named Direction.name neighbours).map (·.1) = ["n", "e", "s", "w"] ∧
        (∀ direction other, (direction, .cell other) ∈ neighbours ↔
          ∃ target, direction.Steps (row, column) target ∧ grid.Holds target ∧
            other = grid.number target.1 target.2) ∧
        (∀ direction, (direction, .boundary) ∈ neighbours ↔
          ¬ ∃ target, direction.Steps (row, column) target ∧ grid.Holds target) ∧
        (∀ direction other, (direction, .cell other) ∈ neighbours →
          ∃ back, grid.table[other]? = some back ∧
            (direction.opposite, .cell (grid.number row column)) ∈ back) ∧
        neighbours = grid.neighboursOf (grid.number row column) := by
  refine ⟨by simp [table_eq], ?_⟩
  intro row column held
  refine ⟨number_lt held, place_div held.2, place_mod held.2, grid.neighboursAt row column,
    table_number held, rfl, ?_, ?_, ?_, (neighboursOf_number held).symm⟩
  · intro direction other
    rw [mem_neighboursAt, across_eq_cell_iff]
  · intro direction
    rw [mem_neighboursAt, across_eq_boundary_iff]
  · intro direction other member
    obtain ⟨target, steps, inside, rfl⟩ := across_eq_cell_iff.mp (mem_neighboursAt.mp member)
    exact ⟨_, table_number inside, mem_neighboursAt.mpr (across_opposite held steps)⟩

/-- The last cell of two rows of three is not beside the first of another row. -/
theorem neighbours_exact_corner :
    Holds ⟨2, 3⟩ (1, 2) ∧
    ∃ neighbours, (table ⟨2, 3⟩)[number ⟨2, 3⟩ 1 2]? = some neighbours ∧
      (.west, .cell 4) ∈ neighbours ∧ (.east, .boundary) ∈ neighbours := by
  have held : Holds ⟨2, 3⟩ (1, 2) := ⟨by decide, by decide⟩
  have left : Holds ⟨2, 3⟩ (1, 1) := ⟨by decide, by decide⟩
  obtain ⟨-, -, -, neighbours, found, -, cells, ends, -⟩ := (neighbours_exact ⟨2, 3⟩).2 1 2 held
  refine ⟨held, neighbours, found, (cells _ _).mpr ⟨(1, 1), .west 1 1, left, rfl⟩, ?_⟩
  apply (ends _).mpr
  rintro ⟨target, steps, inside⟩
  cases steps
  exact absurd inside.2 (by decide)

end Grid

end Tiling
