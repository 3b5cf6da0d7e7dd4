import Tiling.Command.Options
import Tiling.Kit.Load
import Tiling.Tile.Turn

/-!
What a program comes to: the lines it prints, also before it fails, and how it ends.
-/

namespace Tiling.Command

/-- Why a program whose slots are named by `σ` fails. -/
inductive Failing (σ : Type) where
  | usage (reason : UsageError)
  /-- The catalog at a path could not be loaded. -/
  | load (path : String) (reason : LoadError)
  | turn (reason : TurnError String σ)
  | catalog (reason : CatalogError String)
  | problem (reason : ProblemError Nat)
  | search (reason : SearchError Nat σ)
  /-- The search took more steps than any search does. -/
  | overrun
  | fault (reason : Fault)

namespace Failing

variable {σ : Type}

def ofProblem : Failure (ProblemError Nat) → Failing σ
  | .error reason => problem reason
  | .fault reason => fault reason

def ofSearch : Failure (SearchError Nat σ) → Failing σ
  | .error reason => search reason
  | .fault reason => fault reason

def ofLoad (path : String) : Failure LoadError → Failing σ
  | .error reason => load path reason
  | .fault reason => fault reason

end Failing

/-- The lines that a program prints and its end. -/
structure Outcome (σ : Type) where
  lines : List String
  result : Except (Failing σ) Unit

namespace Outcome

variable {σ α : Type}

/-- A program that prints lines and ends well. -/
def ok (lines : List String) : Outcome σ := ⟨lines, .ok ()⟩

/-- The outcome with lines printed before it. -/
def after (outcome : Outcome σ) (lines : List String) : Outcome σ :=
  { outcome with lines := lines ++ outcome.lines }

/-- Goes on with a value, or ends without a further line. -/
def onward (value : Except (Failing σ) α) (next : α → Outcome σ) : Outcome σ :=
  match value with
  | .ok value => next value
  | .error reason => ⟨[], .error reason⟩

end Outcome

/-- A text filled up with blanks to a width. -/
def padded (width : Nat) (text : String) : String :=
  text ++ String.ofList (List.replicate (width - text.length) ' ')

end Tiling.Command
