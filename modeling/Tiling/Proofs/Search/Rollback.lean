import Tiling.Proofs.Search.Settling
import Tiling.Proofs.Search.Termination

/-!
Undoing a decision. A rollback restores the search as it was when the newest decision that stands
was made, and the next step settles the same cell on a candidate not tried there yet, or undoes the
decision before it.
-/

namespace Tiling

variable {κ σ : Type} [Key κ] [Key σ]

namespace Search

/-- The steps that made the decisions still standing, the latest first, once a further step has
been taken: a collapse adds it and a rollback takes the latest away. -/
def restack (places : List Nat) (step : Nat) : Option (Event κ) → List Nat
  | some (.collapsed _ _) => step :: places
  | some (.rolledBack _) => places.tail
  | _ => places

/-- The steps that made the decisions still standing after so many steps, the latest first. -/
def standing (first : Search κ σ) : Nat → List Nat
  | 0 => []
  | steps + 1 => restack (first.standing steps) steps (first.afterSteps steps).step.event?

/-- One of the first so many steps settled a cell on a tile when the trail was this one. -/
def TriedAt (first : Search κ σ) (trail : Trail κ σ) (cell : κ) (steps tile : Nat) : Prop :=
  ∃ earlier < steps, (first.afterSteps earlier).step.Reports (.collapsed cell tile) ∧
    (first.afterSteps earlier).trail = trail

/-- The decisions of a trail were made by these steps, and what was tried in place of each of them
was tried by others. -/
inductive MadeBy (first : Search κ σ) (steps : Nat) : List Nat → List (TrailEntry κ σ) → Prop where
  | nil : first.MadeBy steps [] []
  | narrowing {places : List Nat} {older : List (TrailEntry κ σ)} (made : Narrowing κ σ)
      (others : first.MadeBy steps places older) :
      first.MadeBy steps places (.narrowing made :: older)
  | decision {place : Nat} {places : List Nat} {made : Decision κ σ}
      {older : List (TrailEntry κ σ)}
      (reported : (first.afterSteps place).step.Reports (.collapsed made.cell made.tile))
      (before : (first.afterSteps place).trail = ⟨older⟩)
      (tried : ∀ tile ∈ made.tried, first.TriedAt ⟨older⟩ made.cell steps tile)
      (others : first.MadeBy steps places older) :
      first.MadeBy steps (place :: places) (.decision made :: older)

variable {first : Search κ σ} {steps : Nat} {places : List Nat} {entries : List (TrailEntry κ σ)}

theorem TriedAt.succ {trail : Trail κ σ} {cell : κ} {tile : Nat}
    (tried : first.TriedAt trail cell steps tile) : first.TriedAt trail cell (steps + 1) tile := by
  obtain ⟨earlier, less, settled⟩ := tried
  exact ⟨earlier, Nat.lt_succ_of_lt less, settled⟩

theorem MadeBy.succ (madeBy : first.MadeBy steps places entries) :
    first.MadeBy (steps + 1) places entries := by
  induction madeBy with
  | nil => exact .nil
  | narrowing made _ ih => exact .narrowing made ih
  | decision reported before tried _ ih =>
    exact .decision reported before (fun tile member => (tried tile member).succ) ih

theorem MadeBy.newest {newer older : List (TrailEntry κ σ)} {made : Decision κ σ}
    (madeBy : first.MadeBy steps places (newer ++ .decision made :: older))
    (forced : Trail.Forced newer) :
    ∃ place others, places = place :: others ∧
      (first.afterSteps place).step.Reports (.collapsed made.cell made.tile) ∧
      (first.afterSteps place).trail = ⟨older⟩ ∧
      (∀ tile ∈ made.tried, first.TriedAt ⟨older⟩ made.cell steps tile) ∧
      first.MadeBy steps others older := by
  induction forced with
  | nil =>
    cases madeBy with
    | decision reported before tried others =>
      exact ⟨_, _, rfl, reported, before, tried, others⟩
  | cons narrowed _ ih =>
    cases madeBy with
    | narrowing _ others => exact ih others

theorem MadeBy.eq_nil (madeBy : first.MadeBy steps places entries)
    (undecided : Trail.decisions ⟨entries⟩ = []) : places = [] := by
  induction madeBy with
  | nil => rfl
  | narrowing made _ ih => exact ih (by simpa using undecided)
  | decision => simp at undecided

/-- These steps, among the first so many, account for the trail of a search and for what was tried
on a cell that it is to settle again. -/
structure Accounted (first : Search κ σ) (steps : Nat) (places : List Nat) (search : Search κ σ) :
    Prop where
  madeBy : first.MadeBy steps places search.trail.newestFirst
  retried : search.finished = false → ∀ retry, search.retry = some retry →
    ∀ tile ∈ retry.tried, first.TriedAt search.trail retry.cell steps tile

/-- A step that reports an event accounts for what it changes. -/
theorem Accounted.moves {last after : Search κ σ} {event : Event κ}
    (accounted : first.Accounted steps places last) (coherent : last.Coherent)
    (going : last.finished = false) (trail : (first.afterSteps steps).trail = last.trail)
    (reported : (first.afterSteps steps).step.Reports event)
    (moved : last.Moves (some event) after) :
    first.Accounted (steps + 1) (restack places steps (some event)) after := by
  obtain ⟨madeBy, retried⟩ := accounted
  have retried := retried going
  cases moved with
  | tended tends =>
    have inspection := tends.isInspection
    have kept : restack places steps (some event) = places := by
      cases event with
      | inspected => rfl
      | collapsed | updated | rolledBack | finished => cases inspection
    rw [kept]
    constructor
    · rw [tends.keeps.trail]
      exact madeBy.succ
    · intro _ retry waiting tile member
      rw [tends.retry] at waiting
      rw [tends.keeps.trail]
      exact (retried retry waiting tile member).succ
  | narrowed taken =>
    refine ⟨.narrowing _ madeBy.succ, ?_⟩
    intro _ retry waiting
    obtain ⟨target, selected, -⟩ := coherent.retried retry waiting
    exact absurd selected.toIdle taken.not_idle
  | @settled id target cell tile drawn selected chosen observed =>
    have settles : first.TriedAt last.trail id (steps + 1) tile :=
      ⟨steps, Nat.lt_succ_self steps, reported, trail⟩
    refine ⟨.decision reported trail ?_ madeBy.succ, nofun⟩
    intro other member
    rcases Candidates.mem_insert.mp member with tried | rfl
    · obtain ⟨retry, waiting, rfl, held⟩ := mem_triedOn.mp tried
      exact (retried retry waiting other held).succ
    · exact settles
  | @undone marks newer older made stuck forced stands =>
    rw [stands] at madeBy
    obtain ⟨place, others, rfl, settled, before, tried, madeBy⟩ := madeBy.newest forced
    refine ⟨madeBy.succ, ?_⟩
    intro _ retry waiting tile member
    cases waiting
    exact (tried tile member).succ

theorem accounted_afterSteps {τ π : Type} [Key π] {constraints : Constraints κ τ σ π}
    (starts : constraints.Starts first) (steps : Nat) :
    first.Accounted steps (first.standing steps) (first.afterSteps steps) := by
  induction steps with
  | zero =>
    have opens := starts.opens
    constructor
    · rw [afterSteps, opens.trail]
      exact .nil
    · intro _ retry waiting
      rw [afterSteps, opens.retry] at waiting
      cases waiting
  | succ steps ih =>
    rw [standing, afterSteps]
    cases reported : (first.afterSteps steps).step.event? with
    | none =>
      have kept := keeps_of_event?_eq_none reported
      constructor
      · rw [kept.trail]
        exact ih.madeBy.succ
      · intro going
        have ended := Turn.isProgress_of_event?_eq_none reported
        cases (finished_of_ended ended).symm.trans going
    | some event =>
      obtain ⟨unfinished, last, quiets, moved⟩ := moves_of_event? reported
      have reaches : first.Reaches last := (reaches_of_unfinished unfinished).quiets quiets
      have going : last.finished = false := reaches.finished.trans starts.opens.finished
      have accounted : first.Accounted steps (first.standing steps) last := by
        constructor
        · rw [quiets.keeps.trail]
          exact ih.madeBy
        · intro _
          rw [quiets.keeps.trail, quiets.retry]
          exact ih.retried unfinished
      exact accounted.moves (reaches.coherent starts) going quiets.keeps.trail.symm
        (Turn.reports_iff.mpr reported) moved

section Started

variable {τ π : Type} [Key π] {constraints : Constraints κ τ σ π}

theorem choices_of_collapsed {cell : κ} {tile : Nat}
    (settles : (first.afterSteps steps).step.Reports (.collapsed cell tile)) :
    (first.afterSteps (steps + 1)).trail.choices =
      (first.afterSteps steps).trail.choices ++ [(cell, tile)] := by
  obtain ⟨-, last, quiets, moved⟩ := reaches_of_reports settles
  generalize first.afterSteps (steps + 1) = after at moved
  cases moved with
  | tended tends => cases tends
  | settled =>
    rw [settledOn, Trail.choices_push_decision, ← quiets.keeps.trail]
    rfl

/-- The tiles that a search remembers to have tried on a cell are those on which the cell was
settled with the same trail before it, if no other cell is to be settled again. -/
theorem mem_triedOn_iff_triedAt (starts : constraints.Starts first)
    (unfinished : (first.afterSteps steps).finished = false) {cell : κ}
    (retried : ∀ retry, (first.afterSteps steps).retry = some retry → retry.cell = cell)
    (tile : Nat) :
    tile ∈ (first.afterSteps steps).triedOn cell ↔
      first.TriedAt (first.afterSteps steps).trail cell steps tile := by
  constructor
  · intro tried
    obtain ⟨retry, waiting, rfl, member⟩ := mem_triedOn.mp tried
    exact (accounted_afterSteps starts steps).retried unfinished retry waiting tile member
  · rintro ⟨earlier, less, settles, trail⟩
    obtain ⟨rest, rfl⟩ := Nat.exists_eq_add_of_le less
    have choices := choices_of_collapsed settles
    have whole := reaches_of_unfinished unfinished
    rw [afterSteps_add] at unfinished whole retried trail ⊢
    have onward := reaches_of_unfinished unfinished
    have going : (first.afterSteps (earlier + 1)).finished = false :=
      onward.finished.symm.trans unfinished
    have coherent := (reaches_of_unfinished going).coherent starts
    have passed := (Passed.standing (List.prefix_refl _)).reaches coherent onward
    by_contra fresh
    refine passed.ne_settled retried fresh ?_
    rw [choices, trail]

theorem mem_triedOn_iff (starts : constraints.Starts first)
    (unfinished : (first.afterSteps steps).finished = false) {retry : Retry κ}
    (waiting : (first.afterSteps steps).retry = some retry) (tile : Nat) :
    tile ∈ (first.afterSteps steps).triedOn retry.cell ↔
      first.TriedAt (first.afterSteps steps).trail retry.cell steps tile := by
  apply mem_triedOn_iff_triedAt starts unfinished
  intro other waiting'
  cases waiting.symm.trans waiting'
  rfl

/-- A rollback undoes the latest decision that stands, and leaves the search as it was when that
decision was made. -/
structure Restores (first : Search κ σ) (steps place : Nat) : Prop where
  position : (first.afterSteps (steps + 1)).position = (first.afterSteps place).position
  trail : (first.afterSteps (steps + 1)).trail = (first.afterSteps place).trail
  pending : (first.afterSteps (steps + 1)).pending = []
  visit : (first.afterSteps (steps + 1)).visit = none

theorem restores_of_rolledBack (starts : constraints.Starts first) {cell : κ}
    (undoes : (first.afterSteps steps).step.Reports (.rolledBack cell)) :
    ∃ place others tile retry, first.standing steps = place :: others ∧
      (first.afterSteps place).step.Reports (.collapsed cell tile) ∧ first.Restores steps place ∧
      (first.afterSteps (steps + 1)).finished = false ∧
      (first.afterSteps (steps + 1)).retry = some retry ∧ retry.cell = cell := by
  have accounted := accounted_afterSteps starts steps
  obtain ⟨reaches, last, quiets, moved⟩ := reaches_of_reports undoes
  have reaches := reaches.quiets quiets
  have onward := reaches.move moved
  have going := onward.finished.trans starts.opens.finished
  have madeBy := accounted.madeBy
  rw [← quiets.keeps.trail] at madeBy
  generalize afterwards : first.afterSteps (steps + 1) = after at moved onward going
  cases moved with
  | tended tends => cases tends
  | @undone marks newer older made stuck forced stands =>
    rw [stands] at madeBy
    obtain ⟨place, others, places, settled, before, -, -⟩ := madeBy.newest forced
    have earlier := (reaches_of_reports settled).1
    refine ⟨place, others, made.tile, _, places, settled, ⟨?_, ?_, ?_, ?_⟩, going, rfl, rfl⟩
    · rw [afterwards, (earlier.coherent starts).position, earlier.rules, before, ← reaches.rules]
      rfl
    · rw [afterwards, before]
      rfl
    · rw [afterwards]
      rfl
    · rw [afterwards]
      rfl

/-- The step after so many others settles a cell on a candidate not tried on it with the same trail
before, and the trail records it among those tried. -/
structure Retries (first : Search κ σ) (steps : Nat) (cell : κ) (target : Cell κ σ) (tile : Nat) :
    Prop where
  candidate : tile ∈ target.candidates
  untried : ¬first.TriedAt (first.afterSteps steps).trail cell steps tile
  reported : (first.afterSteps steps).step.Reports (.collapsed cell tile)
  recorded : ∃ made,
    (first.afterSteps (steps + 1)).trail = (first.afterSteps steps).trail.push (.decision made) ∧
    made.cell = cell ∧ made.tile = tile ∧ ∀ other, other ∈ made.tried ↔
      first.TriedAt (first.afterSteps steps).trail cell steps other ∨ other = tile

/-- With a candidate left to try the selected cell is settled on one, unless weighing one fails. -/
theorem exists_retries (starts : constraints.Starts first)
    (unfinished : (first.afterSteps steps).finished = false) {retry : Retry κ}
    (waiting : (first.afterSteps steps).retry = some retry) {target : Cell κ σ}
    (selected : (first.afterSteps steps).Selects retry.cell target)
    (untried : ∃ tile ∈ target.candidates,
      ¬first.TriedAt (first.afterSteps steps).trail retry.cell steps tile) :
    (∃ tile, first.Retries steps retry.cell target tile) ∨
      ∃ weigh tile reason, first.rules.weighting = some weigh ∧ tile ∈ target.candidates ∧
        ¬first.TriedAt (first.afterSteps steps).trail retry.cell steps tile ∧
        weigh tile retry.cell = .error reason ∧
        (first.afterSteps steps).step.outcome = .error (.fault reason) := by
  have reaches := reaches_of_unfinished unfinished
  have tried := mem_triedOn_iff starts unfinished waiting
  have known := reaches.known starts selected.found
  have answer := (first.afterSteps steps).answers_move
  rcases selected.move_of_untried known (by simpa only [tried] using untried) with
    ⟨after, tile, notices, moved⟩ | ⟨after, weigh, tile, reason, weighting, member, fresh, failed,
      moved⟩
  · have stepped := step_of_move unfinished moved
    rw [moved] at answer
    cases answer with
    | progress _ changed =>
      cases changed with
      | tended tends => cases tends
      | settled selected' chosen =>
        obtain ⟨-, rfl⟩ := selected.unique selected'
        obtain ⟨candidate, fresh⟩ :=
          Candidates.mem_diff.mp (Candidates.mem_toList.mp (mem_of_choose chosen))
        refine .inl ⟨tile, candidate, fun held => fresh ((tried tile).mpr held), ?_, ?_⟩
        · rw [stepped]
          exact ⟨_, rfl, rfl⟩
        · rw [afterSteps, stepped]
          refine ⟨_, rfl, rfl, rfl, ?_⟩
          intro other
          rw [Candidates.mem_insert, Candidates.mem_grow, tried]
  · refine .inr ⟨weigh, tile, reason, reaches.rules ▸ weighting, member, ?_, failed, ?_⟩
    · exact fun held => fresh ((tried tile).mpr held)
    · rw [step_of_move unfinished moved]
      rfl

/-- With all its candidates tried the selected cell gives way: the decision before is undone, and
the search ends if there is none. -/
theorem gives_way (starts : constraints.Starts first)
    (unfinished : (first.afterSteps steps).finished = false) {retry : Retry κ}
    (waiting : (first.afterSteps steps).retry = some retry) {target : Cell κ σ}
    (selected : (first.afterSteps steps).Selects retry.cell target)
    (spent : ∀ tile ∈ target.candidates,
      first.TriedAt (first.afterSteps steps).trail retry.cell steps tile) :
    match first.standing steps with
    | [] => (first.afterSteps steps).step.outcome = .error (.error .unsatisfiable)
    | place :: _ => ∃ cell tile, (first.afterSteps place).step.Reports (.collapsed cell tile) ∧
        (first.afterSteps steps).step.Reports (.rolledBack cell) := by
  have tried := mem_triedOn_iff starts unfinished waiting
  have madeBy := (accounted_afterSteps starts steps).madeBy
  have moved := selected.move_of_spent (by simpa only [tried] using spent)
  rw [step_of_move unfinished moved]
  rcases retreat_turn { (first.afterSteps steps).clearMarks with retry := none }
      [.optionsSpent retry.cell] with ⟨newer, made, older, forced, stands, reported⟩ | ⟨none, ended⟩
  · have stands : (first.afterSteps steps).trail.newestFirst = newer ++ .decision made :: older :=
      stands
    rw [stands] at madeBy
    obtain ⟨place, others, places, settled, -⟩ := madeBy.newest forced
    rw [places]
    exact ⟨made.cell, made.tile, settled, reported⟩
  · rw [madeBy.eq_nil none]
    exact ended

/-- A rollback undoes the latest decision that stands exactly, and the next step settles the same
cell on a candidate not tried there yet, or takes back the decision before it. Only weighing the
candidates can make it fail. -/
theorem rollback_exact (starts : constraints.Starts first) {cell : κ}
    (undoes : (first.afterSteps steps).step.Reports (.rolledBack cell)) :
    ∃ place others tile target, first.standing steps = place :: others ∧
      (first.afterSteps place).step.Reports (.collapsed cell tile) ∧ first.Restores steps place ∧
      (first.afterSteps (steps + 1)).Selects cell target ∧
      ((∃ tile ∈ target.candidates,
          ¬first.TriedAt (first.afterSteps (steps + 1)).trail cell (steps + 1) tile) →
        (∃ tile, first.Retries (steps + 1) cell target tile) ∨
        ∃ weigh tile reason, first.rules.weighting = some weigh ∧ tile ∈ target.candidates ∧
          ¬first.TriedAt (first.afterSteps (steps + 1)).trail cell (steps + 1) tile ∧
          weigh tile cell = .error reason ∧
          (first.afterSteps (steps + 1)).step.outcome = .error (.fault reason)) ∧
      ((∀ tile ∈ target.candidates,
          first.TriedAt (first.afterSteps (steps + 1)).trail cell (steps + 1) tile) →
        match others with
        | [] => (first.afterSteps (steps + 1)).step.outcome = .error (.error .unsatisfiable)
        | earlier :: _ => ∃ cell tile,
          (first.afterSteps earlier).step.Reports (.collapsed cell tile) ∧
          (first.afterSteps (steps + 1)).step.Reports (.rolledBack cell)) := by
  obtain ⟨place, others, tile, retry, places, settled, restores, unfinished, waiting, rfl⟩ :=
    restores_of_rolledBack starts undoes
  have coherent := (reaches_of_unfinished unfinished).coherent starts
  obtain ⟨target, selected, -⟩ := coherent.retried retry waiting
  have left : first.standing (steps + 1) = others := by
    rw [standing, Turn.reports_iff.mp undoes, places]
    rfl
  refine ⟨place, others, tile, target, places, settled, restores, selected,
    exists_retries starts unfinished waiting selected, ?_⟩
  intro spent
  have gives := gives_way starts unfinished waiting selected spent
  rw [left] at gives
  exact gives

end Started

/-- The first tile of the second cell is undone, and its other one is tried. -/
theorem rollback_exact_oneSided :
    ∃ first target, Constraints.oneSided.Starts first ∧
      (first.afterSteps 2).step.Reports (.rolledBack 1) ∧ first.standing 2 = [1, 0] ∧
      first.Restores 2 1 ∧ first.Retries 3 1 target 1 := by
  obtain ⟨first, starts, zeroth, once, twice, thrice⟩ := Constraints.exists_starts_oneSided
  have twice := Turn.reports_iff.mpr twice
  have standing : first.standing 2 = [1, 0] := by
    simp only [Search.standing, zeroth, once, restack]
  obtain ⟨place, others, -, target, places, -, restores, -, retries, gives⟩ :=
    rollback_exact starts twice
  cases standing.symm.trans places
  refine ⟨first, target, starts, twice, standing, restores, ?_⟩
  by_cases untried : ∃ tile ∈ target.candidates,
      ¬first.TriedAt (first.afterSteps 3).trail 1 3 tile
  · rcases retries untried with ⟨tile, retries⟩ | ⟨_, _, _, _, _, _, _, failed⟩
    · cases thrice.symm.trans (Turn.reports_iff.mp retries.reported)
      exact retries
    · obtain ⟨snapshot, outcome, -⟩ := Turn.reports_iff.mpr thrice
      cases outcome.symm.trans failed
  · obtain ⟨cell, tile, -, undone⟩ := gives (by simpa using untried)
    cases thrice.symm.trans (Turn.reports_iff.mp undone)

end Search

end Tiling
