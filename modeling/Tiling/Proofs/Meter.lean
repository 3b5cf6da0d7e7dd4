import Tiling.Meter
import Tiling.Proofs.Search.Changes
import Tiling.Proofs.Search.Ending

/-!
Meters follow a search. What a meter counts from the reports of the steps is what the search has
come to after each of them, and a run beside a meter is the same run.
-/

namespace Tiling

variable {κ σ : Type} [Key κ] [Key σ]

omit [Key κ] in
/-- What a cell adds to the number of those that are collapsed. -/
def Cell.share (cell : Cell κ σ) : Nat := if cell.collapsed then 1 else 0

namespace Board

theorem collapsed_eq_countP (board : Board κ σ) :
    board.collapsed = board.cells.values.countP (·.collapsed) := by
  have whole : board.cells.values.length = board.cells.values.countP (·.collapsed) +
      board.cells.values.countP (!·.collapsed) := by
    simpa using List.length_eq_countP_add_countP (l := board.cells.values) (·.collapsed)
  have size : board.cells.values.length = board.size := List.length_map ..
  rw [collapsed, uncollapsed]
  omega

theorem collapsed_eq_sum (board : Board κ σ) :
    board.collapsed = (board.cells.entries.map fun entry => entry.2.share).sum := by
  rw [collapsed_eq_countP, SortedMap.values]
  induction board.cells.entries with
  | nil => rfl
  | cons head rest ih =>
    rw [List.map_cons, List.countP_cons, ih, List.map_cons, List.sum_cons, Nat.add_comm]
    rfl

theorem collapsed_put {board : Board κ σ} {id : κ} {target : Cell κ σ}
    (found : board.get? id = some target) (cell : Cell κ σ) :
    (board.put id cell).collapsed + target.share = board.collapsed + cell.share := by
  rw [collapsed_eq_sum, collapsed_eq_sum]
  exact SortedMap.sum_modifyEntry Cell.share found fun _ => cell

theorem collapsed_put_of_undecided {board : Board κ σ} {id : κ} {target : Cell κ σ}
    (found : board.get? id = some target) (undecided : target.collapsed = false)
    (cell : Cell κ σ) : (board.put id cell).collapsed = board.collapsed + cell.share := by
  have put := collapsed_put found cell
  rw [Cell.share, undecided] at put
  exact put

end Board

namespace Meter

variable {meter : Meter} {search after : Search κ σ}

/-- A meter shows what a search has come to. -/
structure Follows (meter : Meter) (search : Search κ σ) : Prop where
  collapsed : meter.collapsed = search.position.board.collapsed
  backtracks : meter.backtracks = search.tally.rollbacks

theorem Follows.keeps (follows : meter.Follows search) (kept : search.Keeps after) :
    meter.Follows after := by
  constructor
  · rw [kept.position]
    exact follows.collapsed
  · rw [kept.tally]
    exact follows.backtracks

theorem update_of_updated {snapshot : Snapshot κ σ} {source id : κ} {cell : Cell κ σ}
    (event : snapshot.event = .updated source id)
    (found : snapshot.position.board.get? id = some cell) :
    meter.update snapshot = { meter with collapsed := meter.collapsed + cell.share } := by
  rw [update, event]
  simp only [found, Cell.share]
  by_cases collapsed : cell.collapsed = true <;> simp [collapsed]

/-- A cell that is settled or narrowed to one candidate was not collapsed before, so a meter counts
it once. It counts all cells anew when a decision is undone. -/
theorem Follows.moves {event : Event κ} (follows : meter.Follows search)
    (moved : search.Moves (some event) after) :
    (meter.update (after.snapshot event)).Follows after := by
  cases moved with
  | tended tends =>
    have kept := follows.keeps tends.keeps
    cases tends <;> exact kept
  | @narrowed visit check checks target cell taken undecided inspected cut left restricted =>
    have put := Board.collapsed_put_of_undecided taken.found undecided cell
    have found : (search.position.board.put check.neighbour cell).get? check.neighbour =
        some cell := Board.get?_put_self taken.found cell
    rw [update_of_updated rfl found]
    constructor
    · change meter.collapsed + _ = (search.position.board.put check.neighbour cell).collapsed
      rw [put, follows.collapsed]
    · exact follows.backtracks
  | @settled id target cell tile drawn selected chosen observed =>
    have put := Board.collapsed_put_of_undecided selected.found selected.undecided cell
    obtain ⟨-, -, -, collapsed⟩ := Cell.observe_ok observed
    rw [Cell.share, if_pos collapsed] at put
    constructor
    · change meter.collapsed + 1 = (search.position.board.put id cell).collapsed
      rw [put, follows.collapsed]
    · exact follows.backtracks
  | undone stuck forced stands =>
    constructor
    · rfl
    · exact congrArg (· + 1) follows.backtracks

/-- A meter that follows a search follows it through a step. -/
theorem Follows.step (follows : meter.Follows search) :
    (Search.observeMeter meter search.step).Follows search.step.after := by
  have taken := search.steps_step
  have kept := search.keeps_of_event?_eq_none
  generalize search.step = turn at taken kept
  cases taken with
  | progress notices unfinished quiets moved => exact (follows.keeps quiets.keeps).moves moved
  | done | failed | refused => exact follows.keeps (kept rfl)

end Meter

namespace Search

variable {τ π : Type} [Key π] {constraints : Constraints κ τ σ π} {first search : Search κ σ}

/-- What a meter shows after so many steps of a search. -/
def metered (first : Search κ σ) (steps : Nat) : Meter :=
  (first.turns steps).foldl observeMeter (.ofBoard first.position.board)

theorem metered_succ (first : Search κ σ) (steps : Nat) :
    first.metered (steps + 1) =
      observeMeter (first.metered steps) (first.afterSteps steps).step := by
  rw [metered, turns, List.foldl_append]
  rfl

theorem follows_metered (starts : constraints.Starts first) (steps : Nat) :
    (first.metered steps).Follows (first.afterSteps steps) := by
  induction steps with
  | zero =>
    constructor
    · rfl
    · obtain ⟨-, -, -, uncounted⟩ := starts.begun
      exact (congrArg Tally.rollbacks uncounted).symm
  | succ steps ih =>
    rw [metered_succ]
    exact ih.step

theorem foldl_observeMeter (turns : List (Turn κ σ)) (meter : Meter) (seen : Array (Notice κ)) :
    turns.foldl (fun (both : Meter × Array (Notice κ)) turn =>
        (observeMeter both.1 turn, both.2 ++ turn.notices.toArray)) (meter, seen) =
      (turns.foldl observeMeter meter,
        turns.foldl (fun seen turn => seen ++ turn.notices.toArray) seen) := by
  induction turns generalizing meter seen with
  | nil => rfl
  | cons turn rest ih => exact ih ..

/-- A run, a run beside a meter and an iterator that is called often enough end with the same turn.
-/
theorem runs_agree {last : Nat} (unfinished : search.finished = false)
    (going : ∀ earlier < last, (search.afterSteps earlier).step.isProgress = true)
    (ended : (search.afterSteps last).step.isProgress = false) (enough : last < search.stepBound) :
    (∃ notices, search.run = some (notices, (search.afterSteps last).step) ∧
      search.runMetered =
        some ((search.metered (last + 1), notices), (search.afterSteps last).step)) ∧
    ∀ calls > last, (search.yields calls).getLast? = some (search.afterSteps last).step ∧
      search.afterCalls (.replicate calls .next) = (search.afterSteps last).step.after := by
  constructor
  · refine ⟨_, follow_eq_foldl _ going ended enough _, ?_⟩
    rw [runMetered, follow_eq_foldl _ going ended enough, foldl_observeMeter]
    rfl
  · intro calls more
    obtain ⟨yields, after⟩ := yields_eq_turns unfinished going ended more
    rw [yields, after, turns, List.getLast?_concat]
    exact ⟨rfl, rfl⟩

/-- A meter that is shown the reports of a search counts its collapsed cells and its rollbacks, also
where a step fails. From wherever a search goes on, a run, a run beside a meter and an iterator end
with the same turn; and a run from the start beside a meter tells how often the search went back, if
it did. -/
theorem meter_exact (starts : constraints.Starts first) :
    (∀ steps,
      (first.metered steps).collapsed =
        (first.afterSteps steps).position.board.cells.values.countP (·.collapsed) ∧
      (first.metered steps).backtracks = (first.afterSteps steps).tally.rollbacks ∧
      (∀ snapshot, (first.afterSteps steps).step.outcome = .ok (.progress snapshot) →
        first.metered (steps + 1) = (first.metered steps).update snapshot ∧
        (first.metered (steps + 1)).collapsed =
          snapshot.position.board.cells.values.countP (·.collapsed)) ∧
      ((first.afterSteps steps).step.isProgress = false →
        first.metered (steps + 1) = first.metered steps)) ∧
    (∀ calls, (first.afterCalls calls).finished = false → ∃ turn,
      turn.isProgress = false ∧
      (∃ notices meter, (first.afterCalls calls).run = some (notices, turn) ∧
        (first.afterCalls calls).runMetered = some ((meter, notices), turn)) ∧
      ∃ last, ∀ more > last, ((first.afterCalls calls).yields more).getLast? = some turn ∧
        ((first.afterCalls calls).afterCalls (.replicate more .next)) = turn.after) ∧
    ∃ meter notices turn, first.runMetered = some ((meter, notices), turn) ∧
      meter.closing = if 0 < turn.after.tally.rollbacks then
        ["Completed with " ++ toString turn.after.tally.rollbacks ++ " backtracking attempts"]
      else [] := by
  refine ⟨fun steps => ?_, fun calls unfinished => ?_, ?_⟩
  · obtain ⟨collapsed, backtracks⟩ := follows_metered starts steps
    rw [Board.collapsed_eq_countP] at collapsed
    refine ⟨collapsed, backtracks, fun snapshot made => ⟨?_, ?_⟩, fun ended => ?_⟩
    · rw [metered_succ, observeMeter, made]
    · rw [(follows_metered starts (steps + 1)).collapsed, Board.collapsed_eq_countP, afterSteps,
        ← position_of_step made, Step.snapshot]
    · rw [metered_succ, observeMeter]
      split
      · rename_i snapshot made
        rw [Turn.isProgress, made] at ended
        cases ended
      · rfl
  · obtain ⟨steps, same⟩ := exists_steps_of_calls starts calls
    rw [same] at unfinished ⊢
    obtain ⟨last, enough, going, ended⟩ := exists_end starts unfinished
    obtain ⟨⟨notices, run, metered⟩, iterated⟩ := runs_agree unfinished going ended enough
    exact ⟨_, ended, ⟨notices, _, run, metered⟩, last, iterated⟩
  · have unfinished : (first.afterSteps 0).finished = false := starts.opens.finished
    obtain ⟨last, enough, going, ended⟩ := exists_end starts unfinished
    obtain ⟨⟨notices, -, metered⟩, -⟩ := runs_agree unfinished going ended enough
    have shown : (first.metered (last + 1)).backtracks =
        (first.afterSteps last).step.after.tally.rollbacks :=
      (follows_metered starts (last + 1)).backtracks
    refine ⟨_, notices, _, metered, ?_⟩
    change (if 0 < (first.metered (last + 1)).backtracks then
      ["Completed with " ++ toString (first.metered (last + 1)).backtracks ++
        " backtracking attempts"] else []) = _
    rw [shown]
    rfl

/-- In the one-sided problem a meter has counted one rollback after three steps. -/
theorem meter_exact_oneSided :
    ∃ first, Constraints.oneSided.Starts first ∧
      (first.metered 2).collapsed =
        (first.afterSteps 2).position.board.cells.values.countP (·.collapsed) ∧
      (first.metered 3).backtracks = 1 ∧
      (∃ turn notices meter, first.run = some (notices, turn) ∧
        first.runMetered = some ((meter, notices), turn)) := by
  obtain ⟨first, starts, zeroth, once, undone, -⟩ := Constraints.exists_starts_oneSided
  have events : first.events 3 = [.collapsed 0 0, .collapsed 1 0, .rolledBack 1] := by
    simp only [events_succ, zeroth, once, undone]
    rfl
  obtain ⟨-, -, -, uncounted⟩ := starts.begun
  obtain ⟨counts, runs, -⟩ := meter_exact starts
  obtain ⟨turn, -, ⟨notices, meter, run, metered⟩, -⟩ := runs [] starts.opens.finished
  refine ⟨first, starts, (counts 2).1, ?_, turn, notices, meter, run, metered⟩
  rw [(counts 3).2.1, tally_afterSteps uncounted, events]
  rfl

end Search

end Tiling
