import Tiling.Proofs.Search.Rank
import Tiling.Proofs.Search.Settling

/-!
How a move fails. `Fails` lists the failures with what brings each of them about, and `fails_step`
says that a step of a search that is not finished fails in no other way: the contracts of settling,
of narrowing and of the trail are kept by the code that relies on them.
-/

namespace Tiling

variable {κ σ : Type} [Key κ] [Key σ]

namespace Search

/-- The failures that the next move can come to. -/
inductive Fails (search : Search κ σ) : Failure (SearchError κ σ) → Prop where
  /-- A queued cell is not on the board. -/
  | queued {id : κ} {pending : List κ} (unvisited : search.visit = none)
      (listed : search.pending = id :: pending)
      (missing : search.position.board.get? id = none) :
      search.Fails (.error (.unknownCell id))
  /-- The candidates of a queued cell support no set of tiles across one of its slots. -/
  | unsupported {id : κ} {pending : List κ} {cell : Cell κ σ} {reason : SupportError σ}
      (unvisited : search.visit = none) (listed : search.pending = id :: pending)
      (found : search.position.board.get? id = some cell)
      (failed : Check.ofAdjacency search.rules.support cell (search.rules.adjacency id) =
        .error reason) :
      search.Fails (.error (.support reason))
  /-- A neighbour is not on the board. -/
  | neighbour {visit : Visit κ} {check : Check κ} {checks : List (Check κ)}
      (visiting : search.visit = some visit) (listed : visit.checks = check :: checks)
      (missing : search.position.board.get? check.neighbour = none) :
      search.Fails (.error (.unknownCell check.neighbour))
  /-- The decisions that stand are refuted, and there are none. -/
  | unsatisfiable : search.Fails (.error .unsatisfiable)
  | exhausted (idle : search.Idle) (none : search.position.entropy.lowest? = none)
      (left : 0 < search.position.board.uncollapsed) :
      search.Fails (.error (.exhausted search.position.board.uncollapsed))
  /-- The selected cell is not on the board. -/
  | selected {id : κ} (lowest : search.position.entropy.lowest? = some id)
      (missing : search.position.board.get? id = none) :
      search.Fails (.error (.unknownCell id))
  | collapsed {id : κ} {cell : Cell κ σ} (lowest : search.position.entropy.lowest? = some id)
      (found : search.position.board.get? id = some cell) (settled : cell.collapsed = true) :
      search.Fails (.error (.alreadyCollapsed id))
  /-- Weighing a candidate of the selected cell fails. -/
  | weighed {id : κ} {cell : Cell κ σ} {weigh : Weighting κ} {tile : Nat} {reason : Fault}
      (selected : search.Selects id cell) (weighting : search.rules.weighting = some weigh)
      (member : tile ∈ cell.candidates) (failed : weigh tile id = .error reason) :
      search.Fails (.fault reason)
  /-- A candidate of the selected cell is past the end of the catalog. -/
  | beyond {id : κ} {cell : Cell κ σ} {tile capacity : Nat} (selected : search.Selects id cell)
      (member : tile ∈ cell.candidates) (unknown : search.rules.tileCount ≤ tile) :
      search.Fails (.fault (.beyondCapacity tile capacity))

variable {search : Search κ σ} {failure : Failure (SearchError κ σ)}

theorem failure_of_retreat {notices : List (Notice κ)}
    (failed : (search.retreat notices).verdict = .failed failure) :
    failure = .error .unsatisfiable := by
  simp only [retreat] at failed
  cases newest : search.trail.lastDecision? with
  | none =>
    rw [newest] at failed
    cases failed
    rfl
  | some index =>
    obtain ⟨newer, made, older, forced, stands, cut⟩ := Trail.cutAt_lastDecision? newest
    simp only [newest, undo, cut] at failed
    cases failed

theorem failure_of_constrain {source id : κ} {cell : Cell κ σ} {allowed : Candidates}
    (failed : (search.constrain source id cell (cell.candidates.inter allowed)).verdict =
      .failed failure) : failure = .error .unsatisfiable := by
  unfold constrain at failed
  split at failed
  · exact failure_of_retreat failed
  · have within : ∀ tile ∈ cell.candidates.inter allowed, tile ∈ cell.candidates :=
      fun tile member => (Candidates.mem_inter.mp member).1
    obtain ⟨after, restricted⟩ := Cell.exists_restrict within
    rw [narrow_eq, restricted] at failed
    cases failed

theorem failure_of_examine {source : κ} {check : Check κ} {made : Report κ σ}
    (examined : search.examine source check = .report made)
    (failed : made.verdict = .failed failure) :
    failure = .error .unsatisfiable ∨
      failure = .error (.unknownCell check.neighbour) ∧
        search.position.board.get? check.neighbour = none := by
  unfold examine at examined
  split at examined
  · rename_i missing
    cases examined
    cases failed
    exact .inr ⟨rfl, missing⟩
  · split at examined
    · split at examined
      · cases examined
      · cases examined
        exact .inl (failure_of_retreat failed)
    · split at examined
      · cases examined
        cases failed
      · split at examined
        · split at examined
          · cases examined
            cases failed
          · cases examined
        · cases examined
          exact .inl (failure_of_constrain failed)

theorem fault_of_collapse {id : κ} {cell : Cell κ σ} {tried : Candidates} {options : List Nat}
    {reason : Fault} (nonempty : options ≠ []) (members : ∀ tile ∈ options, tile ∈ cell.candidates)
    (failed : search.collapse id cell tried options = .error reason) :
    (∃ weigh, search.rules.weighting = some weigh ∧
        ∃ tile ∈ cell.candidates, weigh tile id = .error reason) ∨
      ∃ tile ∈ cell.candidates, search.rules.tileCount ≤ tile ∧
        ∃ capacity, reason = .beyondCapacity tile capacity := by
  cases chosen : choose search.rules.weighting search.rules.draws search.drawn id options with
  | error cause =>
    rw [collapse_of_choose_error search cell tried chosen] at failed
    cases failed
    obtain ⟨weigh, weighting, tile, listed, failed⟩ := exists_of_choose_error nonempty chosen
    exact .inl ⟨weigh, weighting, tile, members tile listed, failed⟩
  | ok picked =>
    obtain ⟨tile, drawn⟩ := picked
    have member := members tile (mem_of_choose chosen)
    obtain ⟨settled, observed⟩ := Cell.exists_observe member
    unfold collapse Candidates.insertBelow at failed
    simp only [chosen, observed, bind, Except.bind] at failed
    split at failed
    · rename_i inserted
      split at inserted
      · cases inserted
      · rename_i beyond
        cases inserted
        cases failed
        have most : search.rules.tileCount ≤ (tried.grow search.rules.tileCount).capacity :=
          Nat.le_max_right ..
        exact .inr ⟨tile, member, by omega, _, rfl⟩
    · cases failed

private theorem fails_select (idle : search.Idle)
    (failed : search.select.verdict = .failed failure) : search.Fails failure := by
  cases lowest : search.position.entropy.lowest? with
  | none =>
    simp only [select, lowest] at failed
    split at failed
    · rename_i left
      cases failed
      exact .exhausted idle lowest left
    · cases failed
  | some id =>
    have board : search.clearMarks.position.board = search.position.board := rfl
    have triedOn : search.clearMarks.triedOn id = search.triedOn id := rfl
    simp only [select, lowest, settle, board, triedOn] at failed
    split at failed
    · rename_i missing
      cases failed
      exact .selected lowest missing
    · rename_i cell found
      split at failed
      · rename_i settled
        cases failed
        exact .collapsed lowest found settled
      · rename_i undecided
        have selected : search.Selects id cell := ⟨idle, lowest, found, by simpa using undecided⟩
        split at failed
        · cases failure_of_retreat failed
          exact .unsatisfiable
        · rename_i some
          have members : ∀ tile ∈ (cell.candidates.diff (search.triedOn id)).toList,
              tile ∈ cell.candidates := fun tile listed =>
            (Candidates.mem_diff.mp (Candidates.mem_toList.mp listed)).1
          split at failed
          · rename_i reason collapsed
            cases failed
            rcases fault_of_collapse (by simpa using some) members collapsed with
              ⟨weigh, weighting, tile, member, failed⟩ | ⟨tile, member, unknown, capacity, rfl⟩
            · exact .weighed selected weighting member failed
            · exact .beyond selected member unknown
          · cases failed

/-- A move fails for one of the reasons listed. -/
theorem fails_move {made : Report κ σ} (moved : search.move = .report made)
    (failed : made.verdict = .failed failure) : search.Fails failure := by
  unfold move at moved
  split at moved
  · rename_i visit visiting
    split at moved
    · simp only [announce] at moved
      split at moved
      · cases moved
        cases failed
      · cases moved
    · split at moved
      · rename_i check checks listed
        rcases failure_of_examine moved failed with rfl | ⟨rfl, missing⟩
        · exact .unsatisfiable
        · exact .neighbour visiting listed missing
      · cases moved
  · rename_i unvisited
    split at moved
    · rename_i id pending queued
      simp only [openVisit] at moved
      cases found : search.position.board.get? id with
      | none =>
        rw [found] at moved
        cases moved
        cases failed
        exact .queued unvisited queued found
      | some cell =>
        cases listed : Check.ofAdjacency search.rules.support cell (search.rules.adjacency id) with
        | error reason =>
          simp only [found, listed] at moved
          cases moved
          cases failed
          exact .unsupported unvisited queued found listed
        | ok checks =>
          simp only [found, listed] at moved
          cases moved
    · rename_i drained
      cases moved
      exact fails_select ⟨unvisited, drained⟩ failed

theorem fails_step (unfinished : search.finished = false)
    (failed : search.step.outcome = .error failure) :
    ∃ last, search.Quiets last ∧ last.Fails failure := by
  obtain ⟨last, quiets, reported⟩ := search.quiets_advance
  rw [step_of_unfinished unfinished] at failed
  refine ⟨last, quiets, fails_move reported ?_⟩
  unfold Report.turn at failed
  split at failed
  · cases failed
  · cases failed
  · rename_i cause verdict
    cases failed
    exact verdict

/-- In a search of a problem only weighing a tile of the catalog can fault. -/
theorem Reaches.weighed_of_fault {τ π : Type} [Key π] {constraints : Constraints κ τ σ π}
    {first : Search κ σ} (starts : constraints.Starts first) (reaches : first.Reaches search)
    {reason : Fault} (fails : search.Fails (.fault reason)) :
    ∃ weigh tile id, first.rules.weighting = some weigh ∧ tile < constraints.catalog.size ∧
      weigh tile id = .error reason := by
  cases fails with
  | @weighed id cell weigh tile _ selected weighting member failed =>
    rw [reaches.rules] at weighting
    exact ⟨weigh, tile, id, weighting, reaches.lt_size starts selected.found tile member, failed⟩
  | beyond selected member unknown =>
    have known := reaches.known starts selected.found _ member
    omega

end Search

end Tiling
