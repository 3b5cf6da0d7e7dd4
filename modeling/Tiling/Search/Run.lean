import Tiling.Search.Move

/-!
Stepping and running. A step advances a search by one reported move; the first step that does not
make progress finishes the search for good. `Search.follow` takes steps up to that one and shows
each to an observer, within a budget; `stepBound` is a budget large enough for every search.
-/

namespace Tiling

variable {κ σ : Type} [Key κ] [Key σ]

/-- What one call of a search gives: the search afterwards, the outcome and the notices. -/
structure Turn (κ σ : Type) [Key κ] [Key σ] where
  after : Search κ σ
  outcome : Except (Failure (SearchError κ σ)) (Step κ σ)
  notices : List (Notice κ)

/-- Whether the step made progress, so that another one may follow. -/
def Turn.isProgress (turn : Turn κ σ) : Bool :=
  match turn.outcome with
  | .ok (.progress _) => true
  | _ => false

/-- The turn that a report amounts to. -/
def Report.turn (report : Report κ σ) : Turn κ σ :=
  match report.verdict with
  | .progress event =>
    { after := report.after
      outcome := .ok (.progress (report.after.snapshot event))
      notices := report.notices }
  | .done =>
    { after := { report.after with finished := true }
      outcome := .ok (.done (report.after.snapshot .finished))
      notices := report.notices }
  | .failed failure =>
    { after := { report.after with finished := true }
      outcome := .error failure
      notices := report.notices }

/-- A bound on the steps of the searches on a board. With `cells` cells and `tiles` tiles there are
fewer than `(tiles + 1) ^ cells` lists of decisions, each is made and undone at most once, and
between two such changes every cell can only lose candidates. -/
def Board.stepBound (board : Board κ σ) (adjacency : κ → List (σ × Neighbour κ)) (tiles : Nat) :
    Nat :=
  let cells := board.size
  let degree := (board.cells.keys.map fun id => (adjacency id).length).foldl max 0
  (2 * Nat.pow (tiles + 1) cells + 1) * ((cells * tiles + cells + 1) * (2 * degree + 2) + 1) + 1

namespace Search

/-- Advances by one reported move; a finished search refuses. -/
def step (search : Search κ σ) : Turn κ σ :=
  if search.finished then { after := search, outcome := .error (.error .finished), notices := [] }
  else search.advance.turn

/-- The next step, or nothing once the search has finished. -/
def next? (search : Search κ σ) : Option (Turn κ σ) :=
  if search.finished then none else some search.step

/-- Takes steps up to the first that makes no progress, and hands each one to an observer. Gives
nothing if the budget does not last. -/
def follow {β : Type} (observe : β → Turn κ σ → β) :
    Nat → β → Search κ σ → Option (β × Turn κ σ)
  | 0, _, _ => none
  | budget + 1, seen, search =>
    let turn := search.step
    let seen := observe seen turn
    if turn.isProgress then follow observe budget seen turn.after else some (seen, turn)

/-- A bound on the steps of a search. -/
def stepBound (search : Search κ σ) : Nat :=
  search.rules.start.board.stepBound search.rules.adjacency search.rules.tileCount

/-- Runs a search to its end: all notices in order, and the last turn. -/
def run (search : Search κ σ) : Option (Array (Notice κ) × Turn κ σ) :=
  search.follow (fun seen turn => seen ++ turn.notices.toArray) search.stepBound #[]

/-- Checks that each cell's flag, candidates and score agree: a collapsed cell has one candidate
and scores exactly one, any other has several and scores from their number up to the next whole
number. The first cell that fails is reported. -/
def verify (search : Search κ σ) : Except (SearchError κ σ) Unit :=
  search.position.board.cells.entries.forM fun (id, cell) =>
    let score := search.position.entropy.get? id
    let agrees := match score with
      | none => false
      | some score =>
        if cell.collapsed then cell.count = 1 && score.toBits = Entropy.decided.toBits
        else 1 < cell.count && score.toUInt64.toNat = cell.count
    if agrees then .ok () else .error (.inconsistent id cell.count cell.collapsed score)

end Search

end Tiling
