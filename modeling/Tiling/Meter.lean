import Tiling.Search.Run

/-!
Meters: counters that follow a run. A meter knows how many cells are collapsed and how often the
search had to go back, from the snapshots of the steps alone.
-/

namespace Tiling

/-- Counts of a run under way. -/
structure Meter where
  cells : Nat
  collapsed : Nat
  backtracks : Nat := 0
deriving DecidableEq, Inhabited

namespace Meter

variable {κ σ : Type} [Key κ] [Key σ]

/-- A meter at the present position of a search. -/
def ofBoard (board : Board κ σ) : Meter := { cells := board.size, collapsed := board.collapsed }

def recordBacktrack (meter : Meter) : Meter := { meter with backtracks := meter.backtracks + 1 }

/-- Counts what a step did. -/
def update (meter : Meter) (snapshot : Snapshot κ σ) : Meter :=
  match snapshot.event with
  | .collapsed .. => { meter with collapsed := meter.collapsed + 1 }
  | .updated _ cell =>
    match snapshot.position.board.get? cell with
    | some cell => if cell.collapsed then { meter with collapsed := meter.collapsed + 1 } else meter
    | none => meter
  | .rolledBack _ =>
    { meter with collapsed := snapshot.position.board.collapsed }.recordBacktrack
  | .inspected .. => meter
  | .finished => meter

/-- What is printed at the end of a run; nothing if the search never went back. -/
def closing (meter : Meter) : List String :=
  if 0 < meter.backtracks then
    ["Completed with " ++ toString meter.backtracks ++ " backtracking attempts"]
  else []

end Meter

namespace Search

variable {κ σ : Type} [Key κ] [Key σ]

/-- Counts the steps that make progress. -/
def observeMeter (meter : Meter) (turn : Turn κ σ) : Meter :=
  match turn.outcome with
  | .ok (.progress snapshot) => meter.update snapshot
  | _ => meter

/-- Runs a search to its end beside a meter: the meter and all notices, and the last turn. -/
def runMetered (search : Search κ σ) : Option ((Meter × Array (Notice κ)) × Turn κ σ) :=
  search.follow (fun (meter, seen) turn => (observeMeter meter turn, seen ++ turn.notices.toArray))
    search.stepBound (Meter.ofBoard search.position.board, #[])

end Search

end Tiling
