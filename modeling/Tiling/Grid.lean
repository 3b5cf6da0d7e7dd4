import Tiling.Search.State
import Tiling.Text.Label

/-!
Rectangular grids. The cells are numbered row by row, and each meets the outside where the grid
ends. What a cell meets is given twice: `neighboursAt` walks rows and columns and makes a table,
and `neighboursOf` finds a cell's row and column by division.
-/

namespace Tiling

/-- A direction in which a cell of a grid meets a neighbour. -/
inductive Direction where
  | north
  | east
  | south
  | west
deriving DecidableEq, Inhabited

namespace Direction

/-- All directions, clockwise. -/
def all : List Direction := [north, east, south, west]

def opposite : Direction → Direction
  | north => south
  | east => west
  | south => north
  | west => east

def letter : Direction → Char
  | north => 'n'
  | east => 'e'
  | south => 's'
  | west => 'w'

def name (direction : Direction) : String := direction.letter.toString

/-- Directions are ordered by their letters. -/
instance : Ord Direction := ⟨compareOn letter⟩

instance : Std.TransOrd Direction := inferInstanceAs (Std.TransCmp (compareOn letter))

theorem eq_of_letter_eq {first second : Direction} (same : first.letter = second.letter) :
    first = second := by
  cases first <;> cases second <;> simp_all [letter]

instance : Std.LawfulEqOrd Direction where
  compare_self := fun {_} => (Std.LawfulEqOrd.compare_eq_iff_eq (α := Char)).mpr rfl
  eq_of_compare := fun {_ _} same =>
    eq_of_letter_eq ((Std.LawfulEqOrd.compare_eq_iff_eq (α := Char)).mp same)

instance : Key Direction := ⟨inferInstance, inferInstance⟩

instance : Label Direction := ⟨fun direction => label direction.letter⟩

end Direction

/-- A grid of so many rows and columns. -/
structure Grid where
  height : Nat
  width : Nat
deriving DecidableEq, Inhabited

namespace Grid

/-- The number of a cell. -/
def number (grid : Grid) (row column : Nat) : Nat := row * grid.width + column

/-- How many cells there are. -/
def size (grid : Grid) : Nat := grid.height * grid.width

/-- Whether the numbers of the cells can be laid out. The product of the lengths other than zero
must be less than two to the 63rd, and so must the size of the numbers at eight bytes each. -/
def check (grid : Grid) : Except Fault Unit :=
  if 1 <<< 63 ≤ max grid.height 1 * max grid.width 1 then
    .error (.gridTooLarge grid.height grid.width)
  else if 1 <<< 60 ≤ grid.size then .error .outOfMemory
  else .ok ()

/-- The numbers of the cells, row by row. -/
def rows (grid : Grid) : List (List Nat) :=
  (List.range grid.height).map fun row => (List.range grid.width).map (grid.number row)

/-- The number of the cell at a place that may lie outside. -/
def cellAt? (grid : Grid) (row column : Nat) : Option Nat :=
  if row < grid.height ∧ column < grid.width then some (grid.number row column) else none

/-- The row and column next to a place, unless the count starts with the place itself. -/
def beside? (row column : Nat) : Direction → Option (Nat × Nat)
  | .north => if row = 0 then none else some (row - 1, column)
  | .east => some (row, column + 1)
  | .south => some (row + 1, column)
  | .west => if column = 0 then none else some (row, column - 1)

/-- What a cell meets in a direction. -/
def across (grid : Grid) (row column : Nat) (direction : Direction) : Neighbour Nat :=
  match (beside? row column direction).bind fun (row, column) => grid.cellAt? row column with
  | some other => .cell other
  | none => .boundary

/-- What the cell in a row and column meets in each direction. -/
def neighboursAt (grid : Grid) (row column : Nat) : List (Direction × Neighbour Nat) :=
  Direction.all.map fun direction => (direction, grid.across row column direction)

/-- What each cell meets, by number. -/
def table (grid : Grid) : Array (List (Direction × Neighbour Nat)) :=
  ((List.range grid.height).flatMap fun row =>
    (List.range grid.width).map (grid.neighboursAt row)).toArray

/-- What a cell meets in each direction, from its number alone. -/
def neighboursOf (grid : Grid) (id : Nat) : List (Direction × Neighbour Nat) :=
  let row := id / grid.width
  let column := id % grid.width
  [(.north, if 0 < row then .cell (grid.number (row - 1) column) else .boundary),
    (.east, if column + 1 < grid.width then .cell (grid.number row (column + 1)) else .boundary),
    (.south, if row + 1 < grid.height then .cell (grid.number (row + 1) column) else .boundary),
    (.west, if 0 < column then .cell (grid.number row (column - 1)) else .boundary)]

/-- The neighbours of a cell, with its directions named as slots. -/
def named {σ : Type} (slot : Direction → σ) (neighbours : List (Direction × Neighbour Nat)) :
    List (σ × Neighbour Nat) :=
  neighbours.map fun (direction, neighbour) => (slot direction, neighbour)

/-- A board of the grid on which each cell may hold any of the tiles. -/
def board {σ : Type} [Key σ] (grid : Grid) (slot : Direction → σ) (tiles : Candidates) :
    Board Nat σ :=
  .ofCells (grid.rows.flatten.map fun id => .ofCandidates id (Direction.all.map slot) tiles)

end Grid

end Tiling
