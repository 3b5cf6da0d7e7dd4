import Tiling.Kit.Load
import Tiling.Text.Label
import Tiling.Tile.Turn

/-!
Messages: one sentence for every reason why something cannot be done, and one for every notice
of a search.
-/

namespace Tiling

namespace Message

def unknownTile (name : String) : String := "tile " ++ name ++ " is not in the catalog"

def missingPlug (tile slot : String) : String :=
  "tile " ++ tile ++ " has no plug for slot " ++ slot

def missingSetting (name : String) : String :=
  "solver configuration is missing `" ++ name ++ "`"

def unsatisfiable : String :=
  "contradiction with no collapse left to roll back; the field is unsatisfiable"

end Message

variable {κ τ σ : Type} [Label κ] [Label τ] [Label σ]

def TurnError.message : TurnError τ σ → String
  | emptySlots => "cannot rotate an empty slot list"
  | missingPlug tile slot => Message.missingPlug (label tile) (label slot)

def CatalogError.message : CatalogError τ → String
  | duplicateTile id => "tile " ++ label id ++ " appears more than once in the catalog"
  | unknownTile id => Message.unknownTile (label id)

def SupportError.message : SupportError σ → String
  | unknownTile index => Message.unknownTile ("index " ++ label index)
  | missingPlug index slot => Message.missingPlug (label index) (label slot)

/-- A text that cannot be read has no sentence of its own. -/
def KitError.message : KitError τ → Option String
  | unreadable => none
  | catalog reason => some reason.message
  | unpairedSlot => some (Message.missingSetting "opposites")

/-- What a load was about when it failed. -/
def LoadError.context (path : String) : LoadError → String
  | notText => "Failed to read catalog " ++ path
  | invalid _ => "Invalid catalog " ++ path

def Setting.name : Setting → String
  | board => "field"
  | adjacency => "adjacent_cells"
  | pairing => "matching_slot"
  | boundarySocket => "boundary_socket"

def ProblemError.message : ProblemError κ → String
  | missing setting => Message.missingSetting setting.name
  | unknownTile index cell =>
    Message.unknownTile ("index " ++ label index ++ " in cell " ++ label cell)
  | unsatisfiable => Message.unsatisfiable

def SearchError.message : SearchError κ σ → String
  | finished => "the solver has already finished"
  | unknownCell id => "cell " ++ label id ++ " is not in the field"
  | support reason => reason.message
  | unsatisfiable => Message.unsatisfiable
  | exhausted uncollapsed =>
    "no cell can be selected but " ++ label uncollapsed ++ " cells are still uncollapsed"
  | alreadyCollapsed id =>
    "inconsistent solver state at cell " ++ label id ++ " selected while collapsed"
  | lostDecision index => "inconsistent solver state at cell history entry " ++ label index
  | inconsistent id count collapsed score =>
    "inconsistent solver state at cell " ++ label id ++ " (count " ++ label count ++
      ", collapsed " ++ label collapsed ++ ", entropy " ++ label score ++ ")"

/-- How much a notice matters, from the least to the most. -/
inductive Level where
  | trace
  | debug
  | info
  | warn
deriving DecidableEq

def Level.name : Level → String
  | trace => "TRACE"
  | debug => "DEBUG"
  | info => "INFO"
  | warn => "WARN"

namespace Notice

def level : Notice κ → Level
  | asymmetricSupport | emptyCell _ | nothingToRollBack .. => .warn
  | ready .. | contradiction .. | optionsSpent _ | rolledBack .. => .debug
  | collapsed .. | narrowed .. => .trace
  | boardCollapsed _ => .info

def message : Notice κ → String
  | asymmetricSupport => "possibility map is not symmetric under the slot pairing"
  | emptyCell _ => "starting field leaves a cell without candidates"
  | ready .. => "solver ready"
  | collapsed .. => "collapsed cell"
  | narrowed .. => "narrowed cell"
  | contradiction .. => "contradiction found, rolling back"
  | optionsSpent _ => "no untried tile left, rolling back"
  | rolledBack .. => "rolled back collapse"
  | nothingToRollBack .. => "contradiction with nothing left to roll back"
  | boardCollapsed _ => "field collapsed"

/-- The particulars of a notice, by name. -/
def fields : Notice κ → List (String × String)
  | asymmetricSupport => []
  | emptyCell cell => [("cell", label cell)]
  | ready cells tiles pending =>
    [("cells", label cells), ("tiles", label tiles), ("pending", label pending)]
  | collapsed cell tile => [("cell", label cell), ("tile", label tile)]
  | narrowed source cell count =>
    [("source", label source), ("cell", label cell), ("count", label count)]
  | contradiction source cell => [("source", label source), ("cell", label cell)]
  | optionsSpent cell => [("cell", label cell)]
  | rolledBack cell tile tried =>
    [("cell", label cell), ("tile", label tile), ("tried", label tried)]
  | nothingToRollBack collapses rollbacks =>
    [("collapses", label collapses), ("rollbacks", label rollbacks)]
  | boardCollapsed tally =>
    [("collapses", label tally.collapses), ("updates", label tally.updates),
      ("rollbacks", label tally.rollbacks)]

end Notice

end Tiling
