import Tiling.Board
import Tiling.Decimal.TotalOrder
import Tiling.Draws
import Tiling.Order.Blocks

/-!
Entropy: how undecided each cell is. A cell with one candidate scores exactly one. Any other cell
scores the number of its candidates plus a sixteenth of a random draw, so that cells with equally
many candidates come in random order.
-/

namespace Tiling

/-- The scores of the cells of a board. -/
structure Entropy (κ : Type) [Key κ] where
  /-- Only one `Float` is not a number, so a score from a draw without a number has no sign. -/
  scores : SortedMap κ Float
  /-- Of each cell scored anew since, the number of the change that did it last. -/
  changes : SortedMap κ Nat := .empty

namespace Entropy

variable {κ σ : Type} [Key κ] [Key σ]

/-- The score of a cell that is decided. -/
def decided : Float := 1

/-- The weight of a draw in a score. -/
def jitter : Float := 1 / 16

/-- How many draws scoring a cell takes. -/
def drawsFor (count : Nat) : Nat := if count = 1 then 0 else 1

/-- The score of a cell with `count` candidates, when `drawn` draws were taken before. -/
def score (draws : Draws) (drawn count : Nat) : Float :=
  if count = 1 then decided else Float.ofNat count + draws drawn * jitter

/-- Scores cells one after the other. -/
def scoreAll (draws : Draws) : Nat → List (κ × Cell κ σ) → List (κ × Float)
  | _, [] => []
  | drawn, (id, cell) :: rest =>
    (id, score draws drawn cell.count) :: scoreAll draws (drawn + drawsFor cell.count) rest

omit [Key κ] in
theorem keys_scoreAll (draws : Draws) (drawn : Nat) (cells : List (κ × Cell κ σ)) :
    (scoreAll draws drawn cells).map (·.1) = cells.map (·.1) := by
  induction cells generalizing drawn with
  | nil => rfl
  | cons head rest ih => simp [scoreAll, ih]

/-- Scores a board in cell order, from the first draw on. -/
def ofBoard (draws : Draws) (board : Board κ σ) : Entropy κ :=
  { scores := ⟨scoreAll draws 0 board.cells.entries, by
      have byKeys : (board.cells.entries.map (·.1)).Pairwise
          fun first second => compare first second = .lt :=
        List.pairwise_map.mpr board.cells.ascending
      rw [← keys_scoreAll draws 0] at byKeys
      exact List.pairwise_map.mp byKeys⟩ }

/-- How many draws scoring a board takes. -/
def drawsForBoard (board : Board κ σ) : Nat :=
  board.cells.values.countP fun cell => cell.count != 1

def size (entropy : Entropy κ) : Nat := entropy.scores.size

def get? (entropy : Entropy κ) (id : κ) : Option Float := entropy.scores.get? id

/-- The score of a cell, which must have one. -/
def get (entropy : Entropy κ) (id : κ) : Except Fault Float :=
  match entropy.get? id with
  | some score => .ok score
  | none => .error .missingKey

/-- Scores a cell anew, in the change of a number that no other change of the run has. -/
def put (entropy : Entropy κ) (id : κ) (score : Float) (change : Nat) : Entropy κ :=
  { scores := entropy.scores.insert id score
    changes := entropy.changes.insert id change }

/-- Scores agree as numbers, on the same cells. -/
instance : BEq (Entropy κ) := ⟨fun first second =>
  first.scores.keys == second.scores.keys && first.scores.values == second.scores.values⟩

/-- Whether no cell in or below the block of a place was scored anew in only one of two entropies
of one run. -/
def sharesBlock (first second : Entropy κ) (place : Nat) : Bool :=
  let (start, stop) := Blocks.span first.size place
  ((first.scores.keys.take stop).drop start).all fun id =>
    first.changes.get? id = second.changes.get? id

/-- Whether two entropies of one run hold the same scores. Unlike under equality, a score that is
not a number agrees with itself if both entropies share the block in which it lies. -/
def agrees (first second : Entropy κ) : Bool :=
  first.scores.keys == second.scores.keys &&
    (first.scores.values.zip second.scores.values).zipIdx.all fun ((score, other), place) =>
      score == other || sharesBlock first second place

/-- The entry of the least double in the total order, the earliest of several. -/
def least? : List (κ × UInt64) → Option (κ × UInt64)
  | [] => none
  | entry :: rest =>
    match least? rest with
    | none => some entry
    | some best =>
      if Decimal.place entry.2 ≤ Decimal.place best.2 then some entry else some best

/-- The key with the least of the doubles, given by their bits, that do not equal the score of a
decided cell. -/
def lowestOf? (scores : SortedMap κ UInt64) : Option κ :=
  (least? (scores.entries.filter fun entry => Float.ofBits entry.2 != decided)).map (·.1)

/-- The bits of the scores. -/
def bits (entropy : Entropy κ) : SortedMap κ UInt64 :=
  entropy.scores.mapValues fun _ score => score.toBits

/-- The cell to settle next: the one with the least score among those not scored as decided. -/
def lowest? (entropy : Entropy κ) : Option κ := lowestOf? entropy.bits

end Entropy

end Tiling
