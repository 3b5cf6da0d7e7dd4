import Tiling.Search.Choice
import Tiling.Search.Mark
import Tiling.Search.Trail
import Tiling.Support

/-!
The state of a search and what it tells its caller. A search narrows the neighbours of every
changed cell, one visit at a time; when nothing is left to narrow it settles the least decided cell
on a candidate, and when a cell would lose its last candidate it undoes the newest decision.
-/

namespace Tiling

/-- What lies across a slot of a cell. -/
inductive Neighbour (κ : Type) where
  | cell (id : κ)
  | boundary
deriving DecidableEq, Inhabited

/-- What stays the same during a search. -/
structure Rules (κ σ : Type) [Key κ] [Key σ] where
  tileCount : Nat
  support : Support σ
  adjacency : κ → List (σ × Neighbour κ)
  weighting : Option (Weighting κ)
  draws : Draws
  /-- The position before the first change. -/
  start : Position κ σ

/-- A neighbour still to be narrowed. -/
structure Check (κ : Type) where
  neighbour : κ
  /-- The tiles supported by the candidates that the visited cell had when its visit began. -/
  allowed : Candidates
  /-- Whether the check has been shown. -/
  inspected : Bool := false

/-- A cell whose neighbours are being narrowed. -/
structure Visit (κ : Type) where
  source : κ
  /-- Whether the visit has been shown. -/
  announced : Bool := false
  checks : List (Check κ)

/-- The tiles tried so far on a cell whose decision was undone. -/
structure Retry (κ : Type) where
  cell : κ
  tried : Candidates

/-- How many changes of each kind were made. -/
structure Tally where
  collapses : Nat := 0
  updates : Nat := 0
  rollbacks : Nat := 0
deriving DecidableEq, Inhabited

/-- How many changes were made that scored a cell anew. The next one has this number. -/
def Tally.changes (tally : Tally) : Nat := tally.collapses + tally.updates

/-- A search under way. -/
structure Search (κ σ : Type) [Key κ] [Key σ] where
  rules : Rules κ σ
  position : Position κ σ
  /-- What is shown about each cell, in a search that shows its work. -/
  marks : Option (Marks κ)
  trail : Trail κ σ
  /-- The changed cells whose neighbours are not narrowed yet, the first to be visited first. -/
  pending : List κ
  visit : Option (Visit κ)
  retry : Option (Retry κ)
  tally : Tally
  /-- How many draws were taken. -/
  drawn : Nat
  finished : Bool

/-- What a step did. -/
inductive Event (κ : Type) where
  | collapsed (cell : κ) (tile : Nat)
  | updated (source cell : κ)
  | rolledBack (cell : κ)
  | inspected (cell : κ) (mark : Mark)
  | finished
deriving DecidableEq, Inhabited

/-- The position after a step, with what the step did. -/
structure Snapshot (κ σ : Type) [Key κ] [Key σ] where
  event : Event κ
  position : Position κ σ
  marks : Option (Marks κ)

/-- The outcome of a step that did not fail. -/
inductive Step (κ σ : Type) [Key κ] [Key σ] where
  | progress (snapshot : Snapshot κ σ)
  | done (snapshot : Snapshot κ σ)

def Step.snapshot {κ σ : Type} [Key κ] [Key σ] : Step κ σ → Snapshot κ σ
  | progress snapshot => snapshot
  | done snapshot => snapshot

/-- Why a search cannot go on. -/
inductive SearchError (κ σ : Type) where
  | finished
  | unknownCell (id : κ)
  | support (reason : SupportError σ)
  /-- A contradiction came up with no decision left to undo. -/
  | unsatisfiable
  /-- No cell can be selected, but some are not collapsed. -/
  | exhausted (uncollapsed : Nat)
  /-- The cell selected is collapsed. -/
  | alreadyCollapsed (id : κ)
  /-- The trail holds no decision where one was found. -/
  | lostDecision (index : Nat)
  /-- A cell whose flag, candidates and score contradict each other. -/
  | inconsistent (id : κ) (count : Nat) (collapsed : Bool) (score : Option Float)

/-- A failure is an answer about the problem or a broken contract. -/
inductive Failure (ε : Type) where
  | error (reason : ε)
  | fault (reason : Fault)

/-- What a search reports about its work besides the outcome. -/
inductive Notice (κ : Type) where
  | asymmetricSupport
  | emptyCell (cell : κ)
  | ready (cells tiles pending : Nat)
  | collapsed (cell : κ) (tile : Nat)
  | narrowed (source cell : κ) (count : Nat)
  | contradiction (source cell : κ)
  | optionsSpent (cell : κ)
  | rolledBack (cell : κ) (tile tried : Nat)
  | nothingToRollBack (collapses rollbacks : Nat)
  | boardCollapsed (tally : Tally)
deriving DecidableEq

namespace Search

variable {κ σ : Type} [Key κ] [Key σ]

/-- Whether the search shows its work. -/
def isShowing (search : Search κ σ) : Bool := search.marks.isSome

/-- Marks a cell, in a search that shows its work. -/
def mark (search : Search κ σ) (cell : κ) (mark : Mark) : Search κ σ :=
  { search with marks := search.marks.map fun marks => marks.insert cell mark }

/-- Takes every mark away. -/
def clearMarks (search : Search κ σ) : Search κ σ :=
  { search with marks := search.marks.map fun marks => marks.mapValues fun _ _ => .plain }

def snapshot (search : Search κ σ) (event : Event κ) : Snapshot κ σ :=
  { event, position := search.position, marks := search.marks }

end Search

end Tiling
