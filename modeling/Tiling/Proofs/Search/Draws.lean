import Mathlib.Data.Finset.Card
import Tiling.Proofs.Search.Changes
import Tiling.Proofs.Search.Contracts
import Tiling.Proofs.Search.Rollback

/-!
How many draws a search takes. Starting takes one for each cell with several candidates, settling a
cell one if several of its candidates are untried, and narrowing a cell one if several are left;
nothing else takes any. So what a run reports says how many it took.
-/

namespace Tiling

variable {κ σ : Type} [Key κ] [Key σ]

/-- The tiles of a candidate set. -/
def Candidates.tiles (set : Candidates) : Finset Nat := set.toList.toFinset

namespace Candidates

@[simp] theorem mem_tiles {tile : Nat} {set : Candidates} : tile ∈ set.tiles ↔ tile ∈ set := by
  rw [tiles, List.mem_toFinset, mem_toList]

theorem card_tiles (set : Candidates) : set.tiles.card = set.count :=
  List.toFinset_card_of_nodup set.nodup_toList

theorem tiles_diff (first second : Candidates) :
    (first.diff second).tiles = first.tiles \ second.tiles := by
  ext tile
  simp

end Candidates

/-- The candidates of a cell of a board, none if it has no such cell. -/
def Board.tiles (board : Board κ σ) (id : κ) : Finset Nat :=
  (board.get? id).elim ∅ (·.candidates.tiles)

theorem Board.tiles_of_get? {board : Board κ σ} {id : κ} {cell : Cell κ σ}
    (found : board.get? id = some cell) : board.tiles id = cell.candidates.tiles := by
  rw [Board.tiles, found]
  rfl

/-- What was tried in place of each decision that stands, the latest first, and what was tried on
the cell whose decision was undone last. -/
structure Tries where
  standing : List (Finset Nat) := []
  again : Finset Nat := ∅

namespace Tries

/-- What is tried once an event was reported. -/
def record (tries : Tries) : Event κ → Tries
  | .collapsed _ tile => { standing := insert tile tries.again :: tries.standing }
  | .rolledBack _ => { standing := tries.standing.tail, again := tries.standing.headD ∅ }
  | _ => tries

/-- The draws for a choice among so many tiles, or for the score of so many. -/
def drawsFor (tiles : Finset Nat) : Nat := if 2 ≤ tiles.card then 1 else 0

/-- The draws of a step that reports an event and leads from one board to another. -/
def draws (tries : Tries) (board after : Board κ σ) : Event κ → Nat
  | .collapsed id _ => drawsFor (board.tiles id \ tries.again)
  | .updated _ id => drawsFor (after.tiles id)
  | _ => 0

/-- The draws of steps that report events and lead to boards, from a board on. -/
def drawsOf (tries : Tries) (board : Board κ σ) : List (Event κ × Board κ σ) → Nat
  | [] => 0
  | (event, after) :: rest =>
    tries.draws board after event + (tries.record event).drawsOf after rest

end Tries

/-- The event of a turn that makes progress, and the board after it. -/
def Turn.report? (turn : Turn κ σ) : Option (Event κ × Board κ σ) :=
  match turn.outcome with
  | .ok (.progress snapshot) => some (snapshot.event, snapshot.position.board)
  | _ => none

namespace Search

variable {search after : Search κ σ}

/-- What a search has tried. -/
def tries (search : Search κ σ) : Tries where
  standing := (search.trail.decisions.map (·.tried.tiles)).reverse
  again := search.retry.elim ∅ (·.tried.tiles)

theorem Coherent.tiles_triedOn (coherent : search.Coherent) {id : κ} {cell : Cell κ σ}
    (selected : search.Selects id cell) : (search.triedOn id).tiles = search.tries.again := by
  ext tile
  rw [Candidates.mem_tiles, mem_triedOn]
  cases waiting : search.retry with
  | none => simp [tries, waiting]
  | some retry =>
    obtain ⟨target, selected', -⟩ := coherent.retried retry waiting
    obtain ⟨rfl, -⟩ := selected.unique selected'
    simp [tries, waiting]

/-- What a search has tried is what its events say. -/
theorem Moves.tries {event : Option (Event κ)} (moved : search.Moves event after)
    (coherent : search.Coherent) : after.tries = event.elim search.tries search.tries.record := by
  cases moved with
  | tended tends =>
    have same : after.tries = search.tries := by
      rw [Search.tries, Search.tries, tends.keeps.trail, tends.retry]
    rw [same]
    cases tends <;> rfl
  | narrowed => simp [Search.tries, narrowedTo, Trail.push, mark, withChecks, Tries.record]
  | @settled id target cell tile drawn selected chosen observed =>
    have tried : (((search.triedOn id).grow search.rules.tileCount).insert tile).tiles =
        insert tile search.tries.again := by
      rw [← coherent.tiles_triedOn selected]
      ext other
      simp [or_comm]
    simp only [Option.elim, Tries.record, ← tried]
    simp [Search.tries, settledOn, Trail.push, mark, clearMarks]
  | @undone marks newer older made stuck forced stands =>
    have whole : search.trail = ⟨newer ++ .decision made :: older⟩ := congrArg Trail.mk stands
    simp [Search.tries, Search.undone, whole, Trail.decisions_append, forced.decisions,
      Tries.record]

/-- A move takes the draws that its event says. -/
theorem Moves.drawn {event : Option (Event κ)} (moved : search.Moves event after)
    (coherent : search.Coherent) :
    after.drawn = search.drawn +
      event.elim 0 (search.tries.draws search.position.board after.position.board) := by
  cases moved with
  | tended tends =>
    rw [tends.keeps.drawn]
    cases tends <;> rfl
  | @narrowed visit check checks target cell taken undecided inspected cut left restricted =>
    obtain ⟨-, candidates, -⟩ := Cell.restrict_ok restricted
    have found : (search.position.board.put check.neighbour cell).get? check.neighbour =
        some cell := Board.get?_put_self taken.found cell
    have nonempty : (target.candidates.inter check.allowed).count ≠ 0 := by
      obtain ⟨tile, member, supported⟩ := left
      exact Candidates.count_ne_zero_of_mem (Candidates.mem_inter.mpr ⟨member, supported⟩)
    change search.drawn + Entropy.drawsFor (target.candidates.inter check.allowed).count =
      search.drawn + Tries.drawsFor
        ((search.position.board.put check.neighbour cell).tiles check.neighbour)
    rw [Board.tiles_of_get? found, candidates, Tries.drawsFor, Candidates.card_tiles,
      Entropy.drawsFor]
    split <;> split <;> omega
  | @settled id target cell tile drawn selected chosen observed =>
    change drawn =
      search.drawn + Tries.drawsFor (search.position.board.tiles id \ search.tries.again)
    rw [drawn_of_choose chosen, Board.tiles_of_get? selected.found,
      ← coherent.tiles_triedOn selected, ← Candidates.tiles_diff, Tries.drawsFor,
      Candidates.card_tiles]
    rfl
  | undone => rfl

/-- What so many steps report. -/
def reports (search : Search κ σ) (steps : Nat) : List (Event κ × Board κ σ) :=
  (search.turns steps).filterMap Turn.report?

theorem report?_step (search : Search κ σ) :
    search.step.report? =
      search.step.event?.map fun event => (event, search.step.after.position.board) := by
  cases made : search.step.outcome with
  | error failure => simp [Turn.report?, Turn.event?, made]
  | ok result =>
    have position := position_of_step made
    cases result with
    | progress snapshot =>
      have position : snapshot.position = search.step.after.position := position
      simp [Turn.report?, Turn.event?, made, position]
    | done snapshot => simp [Turn.report?, Turn.event?, made]

theorem reports_succ (search : Search κ σ) (steps : Nat) :
    search.reports (steps + 1) = (search.step.event?.map fun event =>
      (event, search.step.after.position.board)).toList ++ search.step.after.reports steps := by
  rw [reports, turns_succ, ← report?_step]
  cases reported : search.step.report? <;> simp [reported, reports]

theorem reports_of_finished (finished : search.finished = true) (steps : Nat) :
    search.reports steps = [] := by
  induction steps with
  | zero => rfl
  | succ steps ih =>
    rw [reports_succ, step_of_finished finished]
    exact ih

variable {τ π : Type} [Key π] {constraints : Constraints κ τ σ π} {first : Search κ σ}

theorem Reaches.step_draws (starts : constraints.Starts first) (reaches : first.Reaches search)
    {event : Event κ} (reported : search.step.event? = some event) :
    first.Reaches search.step.after ∧
      search.step.after.tries = search.tries.record event ∧
      search.step.after.drawn = search.drawn +
        search.tries.draws search.position.board search.step.after.position.board event := by
  obtain ⟨-, last, quiets, moved⟩ := moves_of_event? reported
  have onward := reaches.quiets quiets
  have coherent := onward.coherent starts
  have same : last.tries = search.tries := by
    rw [tries, tries, quiets.keeps.trail, quiets.retry]
  rw [← same, ← quiets.keeps.drawn, ← quiets.keeps.position]
  exact ⟨onward.move moved, moved.tries coherent, moved.drawn coherent⟩

/-- What steps report says how many draws they take. -/
theorem Reaches.drawn_afterSteps (starts : constraints.Starts first)
    (reaches : first.Reaches search) (steps : Nat) :
    (search.afterSteps steps).drawn =
      search.drawn + search.tries.drawsOf search.position.board (search.reports steps) := by
  induction steps generalizing search with
  | zero => rfl
  | succ steps ih =>
    rw [afterSteps_succ, reports_succ]
    cases reported : search.step.event? with
    | none =>
      have finished := finished_of_ended (Turn.isProgress_of_event?_eq_none reported)
      rw [afterSteps_of_finished finished, reports_of_finished finished]
      exact (keeps_of_event?_eq_none reported).drawn
    | some event =>
      obtain ⟨onward, tried, drawn⟩ := reaches.step_draws starts reported
      rw [ih onward, tried, drawn, Nat.add_assoc]
      rfl

/-- A cell is settled on one of its candidates that are untried. The others are those on which it
was settled with the same trail before. -/
theorem untried_of_collapsed (starts : constraints.Starts first) {steps : Nat} {id : κ} {tile : Nat}
    (settles : (first.afterSteps steps).step.Reports (.collapsed id tile)) :
    tile ∈ (first.afterSteps steps).position.board.tiles id \
        (first.afterSteps steps).tries.again ∧
      ∀ other, other ∈ (first.afterSteps steps).tries.again ↔
        first.TriedAt (first.afterSteps steps).trail id steps other := by
  obtain ⟨reaches, last, quiets, moved⟩ := reaches_of_reports settles
  have coherent := (reaches.quiets quiets).coherent starts
  have unfinished := reaches.finished.trans starts.opens.finished
  have again : last.tries.again = (first.afterSteps steps).tries.again := by
    rw [tries, tries, quiets.retry]
  generalize first.afterSteps (steps + 1) = after at moved
  cases moved with
  | tended tends => cases tends
  | settled selected chosen =>
    rw [← again, ← coherent.tiles_triedOn selected]
    constructor
    · rw [← quiets.keeps.position, Board.tiles_of_get? selected.found, ← Candidates.tiles_diff,
        Candidates.mem_tiles]
      exact Candidates.mem_toList.mp (mem_of_choose chosen)
    · intro other
      rw [Candidates.mem_tiles, mem_triedOn, quiets.retry, ← mem_triedOn]
      apply mem_triedOn_iff_triedAt starts unfinished
      intro retry waiting
      rw [← quiets.retry] at waiting
      obtain ⟨target, selected', -⟩ := coherent.retried retry waiting
      exact (selected.unique selected').1.symm

theorem nonempty_of_updated (starts : constraints.Starts first) {steps : Nat} {source id : κ}
    (narrows : (first.afterSteps steps).step.Reports (.updated source id)) :
    ((first.afterSteps (steps + 1)).position.board.tiles id).Nonempty := by
  obtain ⟨reaches, last, quiets, moved⟩ := reaches_of_reports narrows
  obtain ⟨-, visit, check, -, -, -, -, narrowed⟩ :=
    moved.narrows ((reaches.quiets quiets).scores starts)
  obtain ⟨target, cell, -, found, -, -, -, ⟨tile, member⟩, -⟩ := narrowed.narrowed
  rw [Board.tiles_of_get? found]
  exact ⟨tile, Candidates.mem_tiles.mpr member⟩

end Search

section Started

variable {τ π : Type} [Key π] {constraints : Constraints κ τ σ π} {weighting : Option (Weighting κ)}
  {draws : Draws} {showing : Bool} {first : Search κ σ}

theorem Board.Viable.countP_eq {board : Board κ σ} (viable : board.Viable)
    {entries : List (κ × Cell κ σ)} (listed : ∀ entry ∈ entries, entry ∈ board.cells.entries) :
    (entries.map (·.2)).countP (fun cell => cell.count != 1) =
      entries.countP fun entry => 2 ≤ entry.2.count := by
  rw [List.countP_map]
  apply List.countP_congr
  intro entry member
  obtain ⟨tile, held⟩ := viable entry.1 entry.2 (Board.get?_eq_some_iff.mpr (listed entry member))
  have nonempty : entry.2.count ≠ 0 := Candidates.count_ne_zero_of_mem held
  simp only [Function.comp_apply, bne_iff_ne, decide_eq_true_eq]
  omega

theorem Constraints.draws_of_started
    (started : (constraints.problem weighting draws showing).start.outcome = .ok first) :
    first.drawn = first.position.board.cells.entries.countP (fun entry => 2 ≤ entry.2.count) ∧
    ∀ before id cell rest, first.position.board.cells.entries = before ++ (id, cell) :: rest →
      first.position.entropy.get? id = some (if 2 ≤ cell.count then
        Float.ofNat cell.count +
          draws (before.countP fun entry => 2 ≤ entry.2.count) * Entropy.jitter
      else Entropy.decided) := by
  have starts : constraints.Starts first := ⟨weighting, draws, showing, started⟩
  have viable := starts.viable
  obtain ⟨-, -, entropy, drawn⟩ := settings_of_started started
  rw [starts.opens.position, entropy, drawn]
  constructor
  · exact viable.countP_eq fun entry listed => listed
  · intro before id cell rest listed
    have earlier : ∀ entry ∈ before, entry ∈ first.rules.start.board.cells.entries := by
      intro entry member
      rw [listed]
      exact List.mem_append_left _ member
    have nonempty : cell.count ≠ 0 := by
      have held : (id, cell) ∈ first.rules.start.board.cells.entries := by simp [listed]
      obtain ⟨tile, member⟩ := viable id cell (Board.get?_eq_some_iff.mpr held)
      exact Candidates.count_ne_zero_of_mem member
    rw [Entropy.get?_ofBoard draws listed, viable.countP_eq earlier, Entropy.score]
    by_cases single : cell.count = 1
    · simp [single]
    · have several : 2 ≤ cell.count := by omega
      simp [single, several]

namespace Search

theorem tries_of_starts (starts : constraints.Starts first) : first.tries = {} := by
  rw [tries, starts.opens.trail, starts.opens.retry]
  rfl

/-- A step takes a draw if it settles a cell of which several candidates are untried, or leaves a
narrowed cell with several, and no other step does. -/
theorem drawn_succ (starts : constraints.Starts first) (steps : Nat) :
    (first.afterSteps (steps + 1)).drawn = (first.afterSteps steps).drawn +
      (first.afterSteps steps).step.event?.elim 0 ((first.afterSteps steps).tries.draws
        (first.afterSteps steps).position.board (first.afterSteps (steps + 1)).position.board) := by
  cases reported : (first.afterSteps steps).step.event? with
  | none => exact (keeps_of_event?_eq_none reported).drawn
  | some event =>
    obtain ⟨reaches, -⟩ := reaches_of_reports (Turn.reports_iff.mpr reported)
    obtain ⟨-, -, drawn⟩ := reaches.step_draws starts reported
    exact drawn

/-- Starting a search takes a draw for each cell with several candidates, in cell order. A step that
settles a cell takes one if several of its candidates are untried, a step that narrows a cell takes
one if several are left, and no other step takes any. So searches that start on the same board and
report the same have taken equally many draws, however they weigh and draw. -/
theorem draws_exact
    (started : (constraints.problem weighting draws showing).start.outcome = .ok first) :
    (first.drawn = first.position.board.cells.entries.countP (fun entry => 2 ≤ entry.2.count) ∧
      ∀ before id cell rest, first.position.board.cells.entries = before ++ (id, cell) :: rest →
        first.position.entropy.get? id = some (if 2 ≤ cell.count then
          Float.ofNat cell.count +
            draws (before.countP fun entry => 2 ≤ entry.2.count) * Entropy.jitter
        else Entropy.decided)) ∧
    (∀ steps,
      (∀ id tile, (first.afterSteps steps).step.Reports (.collapsed id tile) →
        ∃ untried : Finset Nat,
          (∀ other, other ∈ untried ↔ other ∈ (first.afterSteps steps).position.board.tiles id ∧
            ¬first.TriedAt (first.afterSteps steps).trail id steps other) ∧
          tile ∈ untried ∧
          (first.afterSteps (steps + 1)).drawn =
            (first.afterSteps steps).drawn + if 2 ≤ untried.card then 1 else 0) ∧
      (∀ source id, (first.afterSteps steps).step.Reports (.updated source id) →
        ((first.afterSteps (steps + 1)).position.board.tiles id).Nonempty ∧
        (first.afterSteps (steps + 1)).drawn = (first.afterSteps steps).drawn +
          if 2 ≤ ((first.afterSteps (steps + 1)).position.board.tiles id).card then 1 else 0) ∧
      ((∀ id tile, ¬(first.afterSteps steps).step.Reports (.collapsed id tile)) →
        (∀ source id, ¬(first.afterSteps steps).step.Reports (.updated source id)) →
        (first.afterSteps (steps + 1)).drawn = (first.afterSteps steps).drawn)) ∧
    ∀ (others : Constraints κ τ σ π) weighting' draws' showing' other,
      (others.problem weighting' draws' showing').start.outcome = .ok other →
      other.position.board = first.position.board → ∀ steps steps',
      other.reports steps' = first.reports steps →
      (other.afterSteps steps').drawn = (first.afterSteps steps).drawn := by
  have starts : constraints.Starts first := ⟨weighting, draws, showing, started⟩
  refine ⟨Constraints.draws_of_started started, fun steps => ⟨fun id tile settles => ?_,
    fun source id narrows => ⟨nonempty_of_updated starts narrows, ?_⟩,
    fun unsettled unnarrowed => ?_⟩,
    fun others weighting' draws' showing' other started' board steps steps' same => ?_⟩
  · obtain ⟨member, tried⟩ := untried_of_collapsed starts settles
    refine ⟨_, fun other => ?_, member, ?_⟩
    · rw [Finset.mem_sdiff, tried]
    · rw [drawn_succ starts, Turn.reports_iff.mp settles]
      rfl
  · rw [drawn_succ starts, Turn.reports_iff.mp narrows]
    rfl
  · rw [drawn_succ starts]
    cases reported : (first.afterSteps steps).step.event? with
    | none => rfl
    | some event =>
      have reports := Turn.reports_iff.mpr reported
      cases event with
      | collapsed id tile => exact absurd reports (unsettled id tile)
      | updated source id => exact absurd reports (unnarrowed source id)
      | rolledBack | inspected | finished => rfl
  · have starts' : others.Starts other := ⟨weighting', draws', showing', started'⟩
    have opening := (Constraints.draws_of_started started).1
    have opening' := (Constraints.draws_of_started started').1
    rw [Reaches.start.drawn_afterSteps starts, Reaches.start.drawn_afterSteps starts',
      tries_of_starts starts, tries_of_starts starts', opening, opening', board, same]

/-- The one-sided problem starts with two draws, undoing its decision takes none, and a first step
takes as many with weights as without. -/
theorem draws_exact_oneSided :
    ∃ first other,
      (Constraints.oneSided.problem none (fun _ => 0) false).start.outcome = .ok first ∧
      (Constraints.oneSided.problem (some fun _ _ => .ok 0) (fun _ => 0) false).start.outcome =
        .ok other ∧
      first.drawn = 2 ∧
      (first.afterSteps 2).step.Reports (.rolledBack 1) ∧
      (first.afterSteps 3).drawn = (first.afterSteps 2).drawn ∧
      (other.afterSteps 1).drawn = (first.afterSteps 1).drawn := by
  have computed : ((Constraints.oneSided.problem none (fun _ => 0) false).start.outcome.toOption.any
      fun first => (Constraints.oneSided.problem (some fun _ _ => .ok 0) (fun _ => 0)
        false).start.outcome.toOption.any fun other =>
          (first.position.board.cells.entries.countP (fun entry => 2 ≤ entry.2.count) = 2 &&
            ((first.turnWithin 8 2).any (·.event? = some (.rolledBack 1)) &&
            (other.position.board = first.position.board &&
              ((first.turnWithin 8 0).any fun turn =>
                (other.turnWithin 8 0).any (·.report? = turn.report?)))))) = true := by
    decide +kernel
  obtain ⟨first, started, computed⟩ := exists_ok_of_any computed
  obtain ⟨other, started', computed⟩ := exists_ok_of_any computed
  obtain ⟨several, computed⟩ := Bool.and_eq_true_iff.mp computed
  obtain ⟨undone, computed⟩ := Bool.and_eq_true_iff.mp computed
  obtain ⟨board, reported⟩ := Bool.and_eq_true_iff.mp computed
  have undone := of_decide_eq_true (of_turnWithin undone)
  have reported : other.step.report? = first.step.report? :=
    of_decide_eq_true (of_turnWithin (of_turnWithin reported))
  have same : other.reports 1 = first.reports 1 := by
    change [other.step].filterMap Turn.report? = [first.step].filterMap Turn.report?
    rw [List.filterMap_cons, List.filterMap_cons, reported]
  obtain ⟨⟨opening, -⟩, account, determined⟩ := draws_exact started
  obtain ⟨-, -, none⟩ := account 2
  refine ⟨first, other, started, started', opening.trans (of_decide_eq_true several),
    Turn.reports_iff.mpr undone, none ?_ ?_, ?_⟩
  · intro id tile settles
    cases undone.symm.trans (Turn.reports_iff.mp settles)
  · intro source id narrows
    cases undone.symm.trans (Turn.reports_iff.mp narrows)
  · exact determined _ _ _ _ other started' (of_decide_eq_true board) 1 1 same

end Search

end Started

end Tiling
