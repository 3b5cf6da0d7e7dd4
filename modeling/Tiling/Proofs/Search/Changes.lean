import Tiling.Proofs.Search.Scores
import Tiling.Proofs.Search.Visits

/-!
What a step changes. A step that settles or narrows a cell changes that cell and its score and
nothing else, and no other step but the undoing of a decision changes the board at all. So cells
only lose candidates from one undoing to the next.
-/

namespace Tiling

variable {κ σ : Type} [Key κ] [Key σ]

namespace Position

variable {before after : Position κ σ} {id : κ}

/-- Two positions differ in one cell and its score at most. -/
structure OnlyAt (before after : Position κ σ) (id : κ) : Prop where
  keys : after.board.cells.keys = before.board.cells.keys
  scored : after.entropy.scores.keys = before.entropy.scores.keys
  cell : ∀ other, other ≠ id → after.board.get? other = before.board.get? other
  score : ∀ other, other ≠ id → after.entropy.get? other = before.entropy.get? other

/-- A cell with several candidates is settled on one of them. -/
structure Settles (before after : Position κ σ) (id : κ) (tile : Nat) : Prop extends
    before.OnlyAt after id where
  settled : ∃ target cell, before.board.get? id = some target ∧ after.board.get? id = some cell ∧
    2 ≤ target.count ∧ tile ∈ target.candidates ∧ cell.slots = target.slots ∧
      (∀ other, other ∈ cell.candidates ↔ other = tile) ∧ cell.observed = true

/-- A cell that is not collapsed is left with those of its candidates that are allowed, of which
there are some but not all. -/
structure Narrows (before after : Position κ σ) (id : κ) (allowed : Candidates) : Prop extends
    before.OnlyAt after id where
  narrowed : ∃ target cell, before.board.get? id = some target ∧ after.board.get? id = some cell ∧
    target.collapsed = false ∧ cell.slots = target.slots ∧
      (∀ tile, tile ∈ cell.candidates ↔ tile ∈ target.candidates ∧ tile ∈ allowed) ∧
        (∃ tile, tile ∈ cell.candidates) ∧ ∃ tile ∈ target.candidates, tile ∉ cell.candidates

theorem onlyAt_put {position : Position κ σ} (scored : id ∈ position.entropy.scores.keys)
    (cell : Cell κ σ) (score : Float) (change : Nat) :
    position.OnlyAt ⟨position.board.put id cell, position.entropy.put id score change⟩ id := by
  constructor
  · exact position.board.keys_put id cell
  · exact Entropy.keys_put scored score change
  · intro other differ
    exact Board.get?_put_of_ne (Ne.symm differ) position.board cell
  · intro other differ
    simp [Ne.symm differ]

theorem OnlyAt.within (only : before.OnlyAt after id) {target cell : Cell κ σ}
    (found : before.board.get? id = some target) (changed : after.board.get? id = some cell)
    (slots : cell.slots = target.slots)
    (candidates : ∀ tile ∈ cell.candidates, tile ∈ target.candidates) :
    after.board.Within before.board := by
  refine ⟨only.keys, fun other own held => ?_⟩
  by_cases same : other = id
  · subst same
    cases changed.symm.trans held
    exact ⟨target, found, slots, candidates⟩
  · rw [only.cell other same] at held
    exact ⟨own, held, rfl, fun _ member => member⟩

theorem Settles.within {tile : Nat} (settles : before.Settles after id tile) :
    after.board.Within before.board := by
  obtain ⟨target, cell, found, changed, -, member, slots, only, -⟩ := settles.settled
  apply settles.toOnlyAt.within found changed slots
  intro other held
  exact (only other).mp held ▸ member

theorem Narrows.within {allowed : Candidates} (narrows : before.Narrows after id allowed) :
    after.board.Within before.board := by
  obtain ⟨target, cell, found, changed, -, slots, members, -⟩ := narrows.narrowed
  apply narrows.toOnlyAt.within found changed slots
  intro tile held
  exact ((members tile).mp held).1

end Position

namespace Search

variable {τ π : Type} [Key π] {constraints : Constraints κ τ σ π} {first search after : Search κ σ}
  {draws : Draws} {drawn : Nat}

/-- A cell that is settled had several candidates, for it had some and was not collapsed. -/
theorem Moves.settles {id : κ} {tile : Nat} (moved : search.Moves (some (.collapsed id tile)) after)
    (scored : search.position.Scored draws drawn) :
    search.position.Settles after.position id tile := by
  cases moved with
  | tended tends => cases tends
  | @settled _ target cell _ taken selected chosen observed =>
    obtain ⟨member, only, slots, -⟩ := Cell.observe_ok observed
    have several : 2 ≤ target.count := by
      have nonempty : target.count ≠ 0 := Candidates.count_ne_zero_of_mem member
      have undecided : target.count ≠ 1 :=
        of_decide_eq_false (target.collapsed_eq.symm.trans selected.undecided)
      omega
    refine ⟨Position.onlyAt_put (scored.mem_keys selected.found) cell _ _, target, cell,
      selected.found, ?_, several, member, slots, only, Cell.observed_of_observe observed⟩
    exact Board.get?_put_self selected.found cell

/-- A narrowed cell is left with what the check of the visit under way allows. -/
theorem Moves.narrows {source id : κ} (moved : search.Moves (some (.updated source id)) after)
    (scored : search.position.Scored draws drawn) :
    after.visit.isSome = true ∧ ∃ visit check, search.visit = some visit ∧ visit.source = source ∧
      check ∈ visit.checks ∧ check.neighbour = id ∧
        search.position.Narrows after.position id check.allowed := by
  cases moved with
  | tended tends => cases tends
  | @narrowed visit check checks target cell taken undecided inspected cut left restricted =>
    obtain ⟨within, candidates, slots⟩ := Cell.restrict_ok restricted
    refine ⟨rfl, visit, check, taken.visiting, rfl, taken.mem, rfl,
      Position.onlyAt_put (scored.mem_keys taken.found) cell _ _, target, cell, taken.found, ?_,
      undecided, slots, ?_, ?_, ?_⟩
    · exact Board.get?_put_self taken.found cell
    · intro tile
      rw [candidates]
      exact Candidates.mem_inter
    · obtain ⟨tile, member, supported⟩ := left
      exact ⟨tile, candidates ▸ Candidates.mem_inter.mpr ⟨member, supported⟩⟩
    · obtain ⟨tile, member, unsupported⟩ := cut
      refine ⟨tile, member, fun held => unsupported ?_⟩
      rw [candidates] at held
      exact (Candidates.mem_inter.mp held).2

theorem Moves.inspects {id : κ} {mark : Mark}
    (moved : search.Moves (some (.inspected id mark)) after) :
    after.position = search.position := by
  cases moved with
  | tended tends => exact tends.keeps.position

theorem position_of_step {result : Step κ σ} (made : search.step.outcome = .ok result) :
    result.snapshot.position = search.step.after.position := by
  have taken := search.steps_step
  generalize search.step = turn at taken made
  cases taken with
  | progress | done =>
    cases made
    rfl
  | failed | refused => cases made

/-- A visit that was opened in one step of a run, when the visited cell was as given, is under way
in the move that a later step reports. -/
def VisitsFrom (first : Search κ σ) (began steps : Nat) (source : κ) (given : Cell κ σ) : Prop :=
  ∃ opening last visit, (first.afterSteps began).Quiets opening ∧
    (first.afterSteps began).position.board.get? source = some given ∧ opening.Visits last ∧
    (first.afterSteps steps).Quiets last ∧ last.visit = some visit ∧ visit.source = source ∧
    last.move.after? = some (first.afterSteps (steps + 1))

/-- A cell is narrowed to what the visited cell supported when its visit was opened. -/
theorem narrows_of_updated (starts : constraints.Starts first) {steps : Nat} {source id : κ}
    (reported : (first.afterSteps steps).step.Reports (.updated source id)) :
    ∃ began ≤ steps, ∃ given slot allowed, first.VisitsFrom began steps source given ∧
      (slot, .cell id) ∈ constraints.adjacency source ∧ given.slots.contains slot = true ∧
      (Support.ofCatalog constraints.catalog constraints.pairing).acrossAny given.candidates slot =
        .ok allowed ∧
      (first.afterSteps steps).position.Narrows (first.afterSteps (steps + 1)).position id
        allowed := by
  obtain ⟨reaches, last, quiets, moved⟩ := reaches_of_reports reported
  have unfinished : (first.afterSteps steps).finished = false :=
    reaches.finished.trans starts.opens.finished
  have since := (visitedSince_afterSteps starts.opens.visit unfinished).quiets (.none _) quiets
  obtain ⟨visiting, visit, check, under, rfl, member, rfl, narrows⟩ :=
    moved.narrows ((reaches.quiets quiets).scores starts)
  obtain ⟨began, most, opening, opened, visits⟩ := since (by simp [under])
  obtain ⟨visit', given, under', found, checks⟩ := visits.checks
  cases under.symm.trans under'
  obtain ⟨slot, arc, across⟩ := checks check member
  have rules : opening.rules = first.rules :=
    visits.rules.symm.trans (quiets.keeps.rules.trans reaches.rules)
  rw [rules, starts.opens.support] at across
  have listed := arc.listed
  rw [rules, starts.opens.adjacency] at listed
  rw [opened.keeps.position] at found
  rw [quiets.keeps.position] at narrows
  exact ⟨began, most, given, slot, check.allowed,
    ⟨opening, last, visit, opened, found, visits, quiets, under, rfl, moved.after?_move visiting⟩,
    listed, arc.own, across, narrows⟩

theorem within_of_step (scored : search.position.Scored draws drawn)
    (standing : ∀ cell, ¬search.step.Reports (.rolledBack cell)) :
    search.step.after.position.board.Within search.position.board := by
  cases reported : search.step.event? with
  | none =>
    rw [(keeps_of_event?_eq_none reported).position]
    exact .refl _
  | some event =>
    obtain ⟨-, last, quiets, moved⟩ := moves_of_event? reported
    rw [← quiets.keeps.position] at scored ⊢
    cases event with
    | collapsed cell tile => exact (moved.settles scored).within
    | updated source cell =>
      obtain ⟨-, visit, check, -, -, -, -, narrows⟩ := moved.narrows scored
      exact narrows.within
    | inspected cell mark =>
      rw [moved.inspects]
      exact .refl _
    | rolledBack cell => exact absurd (Turn.reports_iff.mpr reported) (standing cell)
    | finished => cases moved with
      | tended tends => cases tends

theorem within_of_standing (starts : constraints.Starts first) {steps : Nat} (more : Nat)
    (standing : ∀ between < more, ∀ cell,
      ¬(first.afterSteps (steps + between)).step.Reports (.rolledBack cell)) :
    (first.afterSteps (steps + more)).position.board.Within
      (first.afterSteps steps).position.board := by
  induction more with
  | zero => exact .refl _
  | succ more ih =>
    have earlier := ih fun between less => standing between (Nat.lt_succ_of_lt less)
    have scored := scored_afterSteps starts (steps + more)
    exact (within_of_step scored (standing more (Nat.lt_succ_self more))).trans earlier

/-- A step changes what its event says. Settling leaves the one tile of several, and narrowing
leaves those candidates that the source supported across one of its slots when its visit began; the
rest of the position stays, and all of it when a cell is inspected or the run ends. So cells only
lose candidates up to the next undoing of a decision. -/
theorem changes_as_reported (starts : constraints.Starts first) (steps : Nat) :
    (∀ result, (first.afterSteps steps).step.outcome = .ok result →
      result.snapshot.position = (first.afterSteps (steps + 1)).position) ∧
    (∀ id tile, (first.afterSteps steps).step.Reports (.collapsed id tile) →
      (first.afterSteps steps).position.Settles (first.afterSteps (steps + 1)).position id tile) ∧
    (∀ source id, (first.afterSteps steps).step.Reports (.updated source id) →
      ∃ began ≤ steps, ∃ given slot allowed, first.VisitsFrom began steps source given ∧
        (slot, .cell id) ∈ constraints.adjacency source ∧ given.slots.contains slot = true ∧
        (Support.ofCatalog constraints.catalog constraints.pairing).acrossAny given.candidates
          slot = .ok allowed ∧
        (first.afterSteps steps).position.Narrows (first.afterSteps (steps + 1)).position id
          allowed) ∧
    (∀ id mark, (first.afterSteps steps).step.Reports (.inspected id mark) →
      (first.afterSteps (steps + 1)).position = (first.afterSteps steps).position) ∧
    (∀ snapshot, (first.afterSteps steps).step.outcome = .ok (.done snapshot) →
      (first.afterSteps (steps + 1)).position = (first.afterSteps steps).position) ∧
    (∀ more, (∀ between < more, ∀ id,
        ¬(first.afterSteps (steps + between)).step.Reports (.rolledBack id)) →
      (first.afterSteps (steps + more)).position.board.Within
        (first.afterSteps steps).position.board) := by
  refine ⟨fun result => position_of_step, fun id tile reported => ?_,
    fun source id => narrows_of_updated starts, fun id mark reported => ?_,
    fun snapshot ended => ?_, within_of_standing starts⟩
  · obtain ⟨reaches, last, quiets, moved⟩ := reaches_of_reports reported
    rw [← quiets.keeps.position]
    exact moved.settles ((reaches.quiets quiets).scores starts)
  · obtain ⟨-, last, quiets, moved⟩ := reaches_of_reports reported
    rw [← quiets.keeps.position]
    exact moved.inspects
  · have silent : (first.afterSteps steps).step.event? = none := by simp [Turn.event?, ended]
    exact (keeps_of_event?_eq_none silent).position

/-- Of the two cells of the two-sided problem, the second is narrowed to what the first supports
once that is settled. -/
theorem changes_as_reported_twoSided :
    ∃ first, Constraints.twoSided.Starts first ∧
      (first.afterSteps 0).step.Reports (.collapsed 0 0) ∧
      (first.afterSteps 0).position.Settles (first.afterSteps 1).position 0 0 ∧
      (first.afterSteps 1).step.Reports (.updated 0 1) ∧
      (∃ began ≤ 1, ∃ given slot allowed, first.VisitsFrom began 1 0 given ∧
        (slot, .cell 1) ∈ Constraints.twoSided.adjacency 0 ∧
        (first.afterSteps 1).position.Narrows (first.afterSteps 2).position 1 allowed) ∧
      (first.afterSteps 2).position.board.Within (first.afterSteps 0).position.board := by
  have computed : ((Constraints.twoSided.problem none (fun _ => 0) false).start.outcome.toOption.any
      fun first => (first.turnWithin 8 0).any (·.event? = some (.collapsed 0 0)) &&
        (first.turnWithin 8 1).any (·.event? = some (.updated 0 1))) = true := by decide +kernel
  obtain ⟨first, starts, computed⟩ := Constraints.exists_starts computed
  obtain ⟨settled, narrowed⟩ := Bool.and_eq_true_iff.mp computed
  have settled := of_decide_eq_true (of_turnWithin settled)
  have narrowed := of_decide_eq_true (of_turnWithin narrowed)
  obtain ⟨-, settles, -, -, -, within⟩ := changes_as_reported starts 0
  obtain ⟨-, -, narrows, -⟩ := changes_as_reported starts 1
  obtain ⟨began, most, given, slot, allowed, visits, arc, -, -, narrows⟩ :=
    narrows 0 1 (Turn.reports_iff.mpr narrowed)
  refine ⟨first, starts, Turn.reports_iff.mpr settled, settles 0 0 (Turn.reports_iff.mpr settled),
    Turn.reports_iff.mpr narrowed, ⟨began, most, given, slot, allowed, visits, arc, narrows⟩, ?_⟩
  refine within 2 fun between less id reported => ?_
  rw [Nat.zero_add] at reported
  have event := Turn.reports_iff.mp reported
  match between, less with
  | 0, _ => cases settled.symm.trans event
  | 1, _ => cases narrowed.symm.trans event

end Search

end Tiling
