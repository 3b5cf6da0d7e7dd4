import Tiling.Order.SortedMap

/-!
Marks: what a search that shows its work says about each cell.
-/

namespace Tiling

/-- What last happened to a cell. -/
inductive Mark where
  | collapsed
  | changed
  | noChange
  /-- The cell whose neighbours are being narrowed. -/
  | source
  /-- The neighbour being looked at. -/
  | checked
  | conflict
  | plain
deriving DecidableEq

instance : Inhabited Mark := ⟨.plain⟩

namespace Mark

/-- All marks. -/
def all : List Mark := [collapsed, changed, noChange, source, checked, conflict, plain]

/-- The name of a mark in the text of a value. -/
def name : Mark → String
  | collapsed => "Collapsed"
  | changed => "Changed"
  | noChange => "NoChange"
  | source => "SourceCell"
  | checked => "CheckedCell"
  | conflict => "Conflict"
  | plain => "Default"

/-- The caption of a mark; a plain cell has none. -/
def caption : Mark → String
  | collapsed => "collapsed"
  | changed => "changed"
  | noChange => "noChange"
  | source => "sourceCell"
  | checked => "checkedCell"
  | conflict => "conflict"
  | plain => ""

end Mark

/-- The marks of the cells of a board. -/
abbrev Marks (κ : Type) [Key κ] : Type := SortedMap κ Mark

end Tiling
