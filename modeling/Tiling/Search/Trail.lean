import Tiling.Entropy

/-!
The trail of a search: every decision and every narrowing since the start, each with the position
it led to. Undoing a decision cuts the trail just below it and returns to the position of the
entry that is then the newest.
-/

namespace Tiling

/-- What is known about every cell, and how undecided each is. -/
structure Position (κ σ : Type) [Key κ] [Key σ] where
  board : Board κ σ
  entropy : Entropy κ

/-- A cell settled on a tile by choice. -/
structure Decision (κ σ : Type) [Key κ] [Key σ] where
  cell : κ
  tile : Nat
  /-- The tiles tried on the cell so far from the position before, this one among them. -/
  tried : Candidates
  after : Position κ σ

/-- A cell that lost candidates to a neighbour. -/
structure Narrowing (κ σ : Type) [Key κ] [Key σ] where
  source : κ
  cell : κ
  /-- The candidates left. -/
  tiles : Candidates
  after : Position κ σ

/-- A recorded change of position. -/
inductive TrailEntry (κ σ : Type) [Key κ] [Key σ] where
  | decision (made : Decision κ σ)
  | narrowing (made : Narrowing κ σ)

/-- The recorded changes, the newest first. -/
structure Trail (κ σ : Type) [Key κ] [Key σ] where
  newestFirst : List (TrailEntry κ σ)

variable {κ σ : Type} [Key κ] [Key σ]

/-- The position after the change. -/
def TrailEntry.after : TrailEntry κ σ → Position κ σ
  | decision made => made.after
  | narrowing made => made.after

namespace Trail

def empty : Trail κ σ := ⟨[]⟩

def size (trail : Trail κ σ) : Nat := trail.newestFirst.length

/-- The entries from the oldest to the newest. -/
def toList (trail : Trail κ σ) : List (TrailEntry κ σ) := trail.newestFirst.reverse

def newest? (trail : Trail κ σ) : Option (TrailEntry κ σ) := trail.newestFirst.head?

def push (trail : Trail κ σ) (entry : TrailEntry κ σ) : Trail κ σ :=
  ⟨entry :: trail.newestFirst⟩

/-- The place of the newest decision, counted from the oldest entry. -/
def lastDecision? (trail : Trail κ σ) : Option Nat := go trail.newestFirst
where
  go : List (TrailEntry κ σ) → Option Nat
    | [] => none
    | .decision _ :: older => some older.length
    | .narrowing _ :: older => go older

/-- Keeps the oldest `size` entries and gives the oldest of the others, if there are others. The
trail must have as many. -/
def cutAt (trail : Trail κ σ) (size : Nat) :
    Except Fault (Option (TrailEntry κ σ) × Trail κ σ) :=
  if size ≤ trail.size then
    let removed := trail.size - size
    .ok ((trail.newestFirst.take removed).getLast?, ⟨trail.newestFirst.drop removed⟩)
  else .error (.position size trail.size)

/-- The decisions that stand, from the oldest to the newest. -/
def decisions (trail : Trail κ σ) : List (Decision κ σ) :=
  trail.toList.filterMap fun
    | .decision made => some made
    | .narrowing _ => none

@[simp] theorem decisions_decision (made : Decision κ σ) (older : List (TrailEntry κ σ)) :
    decisions ⟨.decision made :: older⟩ = decisions ⟨older⟩ ++ [made] := by
  simp [decisions, toList]

@[simp] theorem decisions_narrowing (made : Narrowing κ σ) (older : List (TrailEntry κ σ)) :
    decisions ⟨.narrowing made :: older⟩ = decisions ⟨older⟩ := by
  simp [decisions, toList]

/-- Only narrowings are newer than the newest decision. -/
inductive Forced : List (TrailEntry κ σ) → Prop where
  | nil : Forced []
  | cons (made : Narrowing κ σ) {newer : List (TrailEntry κ σ)} (forced : Forced newer) :
      Forced (.narrowing made :: newer)

theorem decisions_append (newer older : List (TrailEntry κ σ)) :
    decisions ⟨newer ++ older⟩ = decisions ⟨older⟩ ++ decisions ⟨newer⟩ := by
  simp [decisions, toList]

theorem Forced.decisions {newer : List (TrailEntry κ σ)} (forced : Forced newer) :
    Trail.decisions ⟨newer⟩ = [] := by
  induction forced with
  | nil => rfl
  | cons made _ ih => simpa using ih

theorem lastDecision?_eq_none {trail : Trail κ σ} (none : trail.lastDecision? = none) :
    trail.decisions = [] := by
  obtain ⟨entries⟩ := trail
  change lastDecision?.go entries = _ at none
  induction entries with
  | nil => rfl
  | cons entry older ih =>
    cases entry with
    | decision made => cases none
    | narrowing made => simpa using ih none

/-- Cutting a trail at the place of its newest decision gives that decision, and leaves what is
older. -/
theorem cutAt_lastDecision? {trail : Trail κ σ} {index : Nat}
    (found : trail.lastDecision? = some index) :
    ∃ newer made older, Forced newer ∧ trail.newestFirst = newer ++ .decision made :: older ∧
      trail.cutAt index = .ok (some (.decision made), ⟨older⟩) := by
  have split : ∃ newer made older, Forced newer ∧
      trail.newestFirst = newer ++ .decision made :: older ∧ index = older.length := by
    obtain ⟨entries⟩ := trail
    change lastDecision?.go entries = _ at found
    induction entries with
    | nil => cases found
    | cons entry rest ih =>
      cases entry with
      | decision made =>
        cases found
        exact ⟨[], made, rest, .nil, rfl, rfl⟩
      | narrowing made =>
        obtain ⟨newer, decided, older, forced, whole, place⟩ := ih found
        exact ⟨.narrowing made :: newer, decided, older, .cons made forced,
          congrArg (_ :: ·) whole, place⟩
  obtain ⟨newer, made, older, forced, whole, rfl⟩ := split
  refine ⟨newer, made, older, forced, whole, ?_⟩
  have removed : newer.length + (older.length + 1) - older.length = newer.length + 1 := by omega
  have enough : older.length ≤ newer.length + (older.length + 1) := by omega
  simp [cutAt, size, whole, enough, removed, List.take_append, List.drop_append]

end Trail

end Tiling
