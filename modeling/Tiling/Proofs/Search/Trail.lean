import Tiling.Proofs.Problem
import Tiling.Proofs.Search.Run

/-!
The history of a search. Every change on a trail was made from the position that the older ones
led to, and a search that has undone a decision is back where that decision was made, about to
settle the same cell again.
-/

namespace Tiling

variable {κ σ : Type} [Key κ] [Key σ]

namespace Rules

variable {rules : Rules κ σ} {Follows : Position κ σ → TrailEntry κ σ → Prop}

/-- Each change on a trail follows from the position that the older ones led to. -/
inductive Chain (rules : Rules κ σ) (Follows : Position κ σ → TrailEntry κ σ → Prop) :
    List (TrailEntry κ σ) → Prop where
  | nil : rules.Chain Follows []
  | cons {entry : TrailEntry κ σ} {older : List (TrailEntry κ σ)}
      (chain : rules.Chain Follows older) (follows : Follows (rules.reached older) entry) :
      rules.Chain Follows (entry :: older)

theorem Chain.older {newer older : List (TrailEntry κ σ)}
    (chain : rules.Chain Follows (newer ++ older)) : rules.Chain Follows older := by
  induction newer with
  | nil => exact chain
  | cons entry newer ih =>
    cases chain with
    | cons chain _ => exact ih chain

theorem Chain.follows {newer older : List (TrailEntry κ σ)} {entry : TrailEntry κ σ}
    (chain : rules.Chain Follows (newer ++ entry :: older)) :
    Follows (rules.reached older) entry := by
  cases chain.older with
  | cons _ follows => exact follows

theorem Chain.before {newer older : List (TrailEntry κ σ)} {entry : TrailEntry κ σ}
    (chain : rules.Chain Follows (newer ++ entry :: older)) : rules.Chain Follows older := by
  cases chain.older with
  | cons before _ => exact before

end Rules

/-- What a change is, made from a position. -/
inductive Position.Leads (before : Position κ σ) : TrailEntry κ σ → Prop where
  | narrowing {made : Narrowing κ σ} {target cell : Cell κ σ}
      (found : before.board.get? made.cell = some target) (undecided : target.collapsed = false)
      (restricted : target.restrict made.tiles = .ok cell)
      (board : made.after.board = before.board.put made.cell cell) :
      before.Leads (.narrowing made)
  | decision {made : Decision κ σ} {target cell : Cell κ σ}
      (lowest : before.entropy.lowest? = some made.cell)
      (found : before.board.get? made.cell = some target) (undecided : target.collapsed = false)
      (observed : target.observe made.tile = .ok cell)
      (board : made.after.board = before.board.put made.cell cell)
      (tried : made.tile ∈ made.tried)
      (candidates : ∀ tile ∈ made.tried, tile ∈ target.candidates) :
      before.Leads (.decision made)

theorem Position.Leads.within {before : Position κ σ} {entry : TrailEntry κ σ}
    (leads : before.Leads entry) : entry.after.board.Within before.board := by
  cases leads with
  | narrowing found undecided restricted board =>
    obtain ⟨within, candidates, slots⟩ := Cell.restrict_ok restricted
    simp only [TrailEntry.after, board]
    exact Board.within_put found slots fun tile member => within tile (candidates ▸ member)
  | decision lowest found undecided observed board tried candidates =>
    obtain ⟨member, only, slots, -⟩ := Cell.observe_ok observed
    simp only [TrailEntry.after, board]
    apply Board.within_put found slots
    intro tile held
    exact (only tile).mp held ▸ member

theorem Rules.Chain.within {rules : Rules κ σ} {entries : List (TrailEntry κ σ)}
    (chain : rules.Chain Position.Leads entries) :
    (rules.reached entries).board.Within rules.start.board := by
  induction chain with
  | nil => exact .refl _
  | cons _ leads ih => exact leads.within.trans ih

namespace Search

variable {search after : Search κ σ} {event : Option (Event κ)}

theorem mem_triedOn {id : κ} {tile : Nat} :
    tile ∈ search.triedOn id ↔
      ∃ retry, search.retry = some retry ∧ retry.cell = id ∧ tile ∈ retry.tried := by
  unfold triedOn
  cases search.retry with
  | none => simp
  | some retry => by_cases same : retry.cell = id <;> simp [same]

theorem Selects.unique {id other : κ} {cell target : Cell κ σ} (selected : search.Selects id cell)
    (selected' : search.Selects other target) : id = other ∧ cell = target := by
  cases selected.lowest.symm.trans selected'.lowest
  cases selected.found.symm.trans selected'.found
  exact ⟨rfl, rfl⟩

theorem Takes.mem {visit : Visit κ} {check : Check κ} {checks : List (Check κ)}
    {target : Cell κ σ} (taken : search.Takes visit check checks target) :
    check ∈ visit.checks := by
  rw [taken.listed]
  exact List.mem_cons_self

theorem Takes.mem_of_mem {visit : Visit κ} {check other : Check κ} {checks : List (Check κ)}
    {target : Cell κ σ} (taken : search.Takes visit check checks target) (member : other ∈ checks) :
    other ∈ visit.checks := by
  rw [taken.listed]
  exact List.mem_cons_of_mem check member

theorem Takes.not_idle {visit : Visit κ} {check : Check κ} {checks : List (Check κ)}
    {target : Cell κ σ} (taken : search.Takes visit check checks target) : ¬search.Idle := by
  intro idle
  cases taken.visiting.symm.trans idle.unvisited

theorem Tends.not_idle (tends : search.Tends event after) : ¬search.Idle := by
  rintro ⟨unvisited, drained⟩
  cases tends with
  | opened _ queued => simp [drained] at queued
  | announced visiting | shown visiting | closed visiting => simp [unvisited] at visiting
  | previewed taken | passed taken | unchanged taken => exact taken.not_idle ⟨unvisited, drained⟩

/-- The trail of a search accounts for its position, and after a decision was undone the same cell
is to be settled again. -/
structure Coherent (search : Search κ σ) : Prop where
  position : search.position = search.rules.reached search.trail.newestFirst
  chain : search.rules.Chain Position.Leads search.trail.newestFirst
  retried : ∀ retry, search.retry = some retry → ∃ target, search.Selects retry.cell target ∧
    ∀ tile ∈ retry.tried, tile ∈ target.candidates

theorem Coherent.within (coherent : search.Coherent) :
    search.position.board.Within search.rules.start.board :=
  coherent.position ▸ coherent.chain.within

/-- Only candidates of the cell were tried on it. -/
theorem Coherent.triedOn (coherent : search.Coherent) {id : κ} {cell : Cell κ σ}
    (selected : search.Selects id cell) : ∀ tile ∈ search.triedOn id, tile ∈ cell.candidates := by
  intro tile tried
  obtain ⟨retry, waiting, rfl, member⟩ := mem_triedOn.mp tried
  obtain ⟨target, selected', candidates⟩ := coherent.retried retry waiting
  obtain ⟨-, rfl⟩ := selected.unique selected'
  exact candidates tile member

theorem Coherent.tends (coherent : search.Coherent) (tends : search.Tends event after) :
    after.Coherent := by
  have kept := tends.keeps
  refine ⟨?_, ?_, fun retry waiting => ?_⟩
  · rw [kept.position, kept.rules, kept.trail]
    exact coherent.position
  · rw [kept.rules, kept.trail]
    exact coherent.chain
  · rw [tends.retry] at waiting
    obtain ⟨target, selected, -⟩ := coherent.retried retry waiting
    exact absurd selected.toIdle tends.not_idle

theorem Coherent.moves (coherent : search.Coherent) (moved : search.Moves event after) :
    after.Coherent := by
  cases moved with
  | tended tends => exact coherent.tends tends
  | narrowed taken undecided inspected cut left restricted =>
    refine ⟨rfl, coherent.chain.cons ?_, fun retry waiting => ?_⟩
    · rw [← coherent.position]
      exact .narrowing taken.found undecided restricted rfl
    · obtain ⟨target, selected, -⟩ := coherent.retried retry waiting
      exact absurd selected.toIdle taken.not_idle
  | settled selected chosen observed =>
    refine ⟨rfl, coherent.chain.cons ?_, fun retry waiting => by cases waiting⟩
    rw [← coherent.position]
    refine .decision selected.lowest selected.found selected.undecided observed rfl (by simp) ?_
    intro tile tried
    rcases Candidates.mem_insert.mp tried with tried | rfl
    · exact coherent.triedOn selected tile tried
    · exact (Cell.observe_ok observed).1
  | @undone marks newer older made stuck forced stands =>
    have chain : search.rules.Chain Position.Leads (newer ++ .decision made :: older) :=
      stands ▸ coherent.chain
    refine ⟨rfl, chain.before, fun retry waiting => ?_⟩
    cases waiting
    cases chain.follows with
    | decision lowest found undecided observed board tried candidates =>
      exact ⟨_, ⟨⟨rfl, rfl⟩, lowest, found, undecided⟩, candidates⟩

theorem Coherent.reaches (coherent : search.Coherent) {last : Search κ σ}
    (reaches : search.Reaches last) : last.Coherent := by
  induction reaches with
  | start => exact coherent
  | move _ moved ih => exact ih.moves moved

end Search

variable {τ π : Type} [Key π] {constraints : Constraints κ τ σ π} {first search : Search κ σ}

theorem Constraints.Opens.coherent (opens : constraints.Opens search) : search.Coherent := by
  refine ⟨?_, ?_, fun retry waiting => ?_⟩
  · rw [opens.trail]
    exact opens.position
  · rw [opens.trail]
    exact .nil
  · rw [opens.retry] at waiting
    cases waiting

namespace Search

theorem Reaches.coherent (starts : constraints.Starts first) (reaches : first.Reaches search) :
    search.Coherent :=
  starts.opens.coherent.reaches reaches

/-- What is listed for a cell is the same throughout a search. -/
theorem Reaches.given (starts : constraints.Starts first) (reaches : first.Reaches search) :
    search.position.board.cells.keys = constraints.board.cells.keys ∧
      ∀ id cell, search.position.board.get? id = some cell → ∃ given,
        constraints.board.get? id = some given ∧ cell.slots = given.slots ∧
          ∀ tile ∈ cell.candidates, tile ∈ given.candidates ∧ ∀ slot,
            (slot, .boundary) ∈ constraints.adjacency id → given.slots.contains slot = true →
              constraints.catalog.shows tile slot constraints.boundarySocket = true := by
  have within := (reaches.coherent starts).within
  rw [reaches.rules] at within
  have trimmed := starts.opens.trimmed
  refine ⟨within.keys.trans trimmed.keys, fun id cell found => ?_⟩
  obtain ⟨start, found, slots, candidates⟩ := within.cell id cell found
  obtain ⟨given, held, trims⟩ := trimmed.given found
  exact ⟨given, held, slots.trans trims.slots, fun tile member =>
    (trims.candidates tile).mp (candidates tile member)⟩

end Search

end Tiling
