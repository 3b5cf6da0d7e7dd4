import Tiling.Proofs.Search.Marks
import Tiling.Proofs.Search.Settling
import Tiling.Proofs.Search.Visits

/-!
The marks that come with a step describe it. Only a step that turns back at a contradiction shows a
conflict, on the cell that has no supported candidate; one that turns back because all candidates
were tried shows none.
-/

namespace Tiling

variable {κ σ : Type} [Key κ] [Key σ]

/-- The cell that a contradiction left without candidates. -/
def Notice.contradicted? : Notice κ → Option κ
  | .contradiction _ cell => some cell
  | _ => none

/-- The cell at which a contradiction made the search turn back. -/
def Turn.refuted? (turn : Turn κ σ) : Option κ :=
  match turn.event? with
  | some (.rolledBack _) => turn.notices.findSome? Notice.contradicted?
  | _ => none

/-- The cell that an event is about and the mark that it leaves there. -/
def Event.marking? : Event κ → Option (κ × Mark)
  | .inspected cell mark => some (cell, mark)
  | .collapsed cell _ => some (cell, .collapsed)
  | .updated _ cell => some (cell, .changed)
  | .rolledBack _ | .finished => none

/-- The marks describe an event, where `refuted?` is the cell at which a contradiction came up. -/
structure Event.ShownBy (event : Event κ) (refuted? : Option κ) (mark? : κ → Option Mark) :
    Prop where
  marking : ∀ cell mark, event.marking? = some (cell, mark) → mark? cell = some mark
  source : ∀ one other, mark? one = some .source → mark? other = some .source → one = other
  checked : ∀ one other, mark? one = some .checked → mark? other = some .checked → one = other
  conflict : ∀ cell, mark? cell = some .conflict ↔ refuted? = some cell
  finished : event = .finished → ∀ cell mark, mark? cell = some mark →
    mark = .plain ∨ mark = .noChange

namespace Search

variable {search after : Search κ σ} {event : Event κ}

theorem marks_of_undo {index : Nat} {made : Decision κ σ}
    (undone : search.undo index = .ok (made, after)) : after.marks = search.marks := by
  unfold undo at undone
  split at undone
  · cases undone
  · cases undone
    rfl
  · cases undone

theorem retreat_shows (search : Search κ σ) (notices : List (Notice κ)) :
    (search.retreat notices).after.marks = search.marks ∧
      (search.retreat notices).notices.findSome? Notice.contradicted? =
        notices.findSome? Notice.contradicted? := by
  unfold retreat
  split
  · exact ⟨rfl, by simp [Report.error, Notice.contradicted?]⟩
  · split
    · exact ⟨rfl, rfl⟩
    · rename_i undone
      exact ⟨marks_of_undo undone, by simp [Notice.contradicted?]⟩

theorem contradict_of_rolledBack {source cell : κ} {check : Check κ} {made : Report κ σ}
    (examined : search.examine source check = .report made)
    (back : made.verdict = .progress (.rolledBack cell)) :
    made = search.contradict source check.neighbour := by
  unfold examine at examined
  split at examined
  · cases examined
    cases back
  · split at examined
    · split at examined
      · cases examined
      · cases examined
        rfl
    · split at examined
      · cases examined
        cases back
      · split at examined
        · split at examined
          · cases examined
            cases back
          · cases examined
        · unfold constrain at examined
          split at examined
          · cases examined
            rfl
          · split at examined <;> cases examined <;> cases back

/-- The decisions that stand are refuted by a neighbour that has no supported candidate. -/
def RefutedAt (search : Search κ σ) (cell : κ) : Prop :=
  ∃ visit check checks target, search.Takes visit check checks target ∧ check.neighbour = cell ∧
    ∀ tile ∈ target.candidates, tile ∉ check.allowed

/-- The decisions that stand leave nothing to try on the selected cell. -/
def Spent (search : Search κ σ) : Prop :=
  ∃ id cell, search.Selects id cell ∧ ∀ tile ∈ cell.candidates, tile ∈ search.triedOn id

theorem moves_of_progress {made : Report κ σ} (moved : search.move = .report made)
    (progress : made.verdict = .progress event) : search.Moves (some event) made.after := by
  have answer := search.answers_move
  rw [moved] at answer
  cases answer with
  | progress notices changed =>
    cases progress
    exact changed
  | done | failed => cases progress

/-- A move that turns back does so at a contradiction, which it marks and names, or because all
candidates were tried. -/
theorem turns_back {made : Report κ σ} {cell : κ} (moved : search.move = .report made)
    (back : made.verdict = .progress (.rolledBack cell)) :
    (∃ refuted, search.RefutedAt refuted ∧
        made.after.marks = (search.mark refuted .conflict).marks ∧
        made.notices.findSome? Notice.contradicted? = some refuted) ∨
      search.Spent ∧ made.after.marks = search.clearMarks.marks ∧
        made.notices.findSome? Notice.contradicted? = none := by
  obtain ⟨marks, stuck⟩ : ∃ marks, search.Stuck marks := by
    have changed := moves_of_progress moved back
    generalize made.after = after at changed
    cases changed with
    | tended tends => cases tends.isInspection
    | undone stuck => exact ⟨_, stuck⟩
  cases stuck with
  | @conflict visit check checks target taken unsupported =>
    cases contradict_of_rolledBack (taken.move_eq.symm.trans moved) back
    obtain ⟨marks, named⟩ := retreat_shows
      ((search.withChecks visit checks).mark check.neighbour .conflict)
      [.contradiction visit.source check.neighbour]
    exact .inl ⟨check.neighbour, ⟨visit, check, checks, target, taken, rfl, unsupported⟩, marks,
      named⟩
  | @spent id target selected tried =>
    cases (selected.move_of_spent tried).symm.trans moved
    obtain ⟨marks, named⟩ := retreat_shows { search.clearMarks with retry := none }
      [.optionsSpent id]
    exact .inr ⟨⟨id, target, selected, tried⟩, marks, named⟩

/-- A cell has the mark that the event of a move gives it. -/
theorem Moves.marking (moved : search.Moves (some event) after) (showing : search.isShowing = true)
    {cell : κ} {mark : Mark} (given : event.marking? = some (cell, mark)) :
    after.markOf? cell = some mark := by
  have marked : ∀ base : Search κ σ, base.isShowing = true →
      (base.mark cell mark).markOf? cell = some mark := fun base shown =>
    (markOf?_mark shown cell cell mark).trans (if_pos rfl)
  cases moved with
  | tended tends => cases tends <;> cases given <;> exact marked _ showing
  | narrowed =>
    cases given
    exact marked (search.withChecks _ _) showing
  | settled =>
    cases given
    exact marked search.clearMarks ((Option.isSome_map ..).trans showing)
  | undone => cases given

theorem Moves.running (moved : search.Moves (some event) after) (coherent : search.Coherent)
    (onward : ∀ cell, event ≠ .rolledBack cell) : after.retry = none := by
  cases moved with
  | tended tends => exact tends.retry.trans (coherent.not_retrying tends.not_idle)
  | narrowed taken => exact coherent.not_retrying taken.not_idle
  | settled => rfl
  | undone => exact absurd rfl (onward _)

theorem Marked.shownBy (marked : search.Marked) (running : search.retry = none)
    (marking : ∀ cell mark, event.marking? = some (cell, mark) → search.markOf? cell = some mark)
    (finished : event = .finished → search.Idle) : event.ShownBy none search.markOf? where
  marking := marking
  source _ _ := marked.source_unique running
  checked _ _ := marked.checked_unique running
  conflict _ := by simp [marked.ne_conflict running]
  finished ended _ _ := marked.of_idle running (finished ended)

theorem shownBy_of_rolledBack (marked : search.Marked) (coherent : search.Coherent)
    {made : Report κ σ} {cell : κ} (moved : search.move = .report made)
    (back : made.verdict = .progress (.rolledBack cell)) :
    (Event.rolledBack cell).ShownBy (made.notices.findSome? Notice.contradicted?)
      made.after.markOf? := by
  rcases turns_back moved back with ⟨refuted, ⟨_, _, _, _, taken, -⟩, marks, named⟩ |
    ⟨-, marks, named⟩
  · have running := coherent.not_retrying taken.not_idle
    have held : ∀ id, made.after.markOf? id =
        if refuted = id then some .conflict else search.markOf? id := by
      intro id
      rw [← markOf?_mark marked.showing, markOf?_congr marks]
    have others : ∀ id mark, mark ≠ .conflict → made.after.markOf? id = some mark →
        search.markOf? id = some mark := by
      intro id mark differ shown
      rw [held] at shown
      split at shown
      · exact absurd (Option.some.inj shown).symm differ
      · exact shown
    rw [named]
    refine ⟨nofun, fun one other first second => ?_, fun one other first second => ?_,
      fun id => ?_, nofun⟩
    · exact marked.source_unique running (others one _ nofun first) (others other _ nofun second)
    · exact marked.checked_unique running (others one _ nofun first) (others other _ nofun second)
    · rw [held]
      by_cases same : refuted = id <;> simp [same, marked.ne_conflict running]
  · have plain : ∀ id mark, made.after.markOf? id = some mark → mark = .plain := by
      intro id mark shown
      rw [markOf?_congr marks] at shown
      exact plain_of_clearMarks shown
    rw [named]
    refine ⟨nofun, fun one other first => ?_, fun one other first => ?_, fun id => ?_, nofun⟩
    · cases plain one _ first
    · cases plain one _ first
    · refine ⟨fun shown => ?_, nofun⟩
      cases plain id _ shown

theorem Marked.exists_marks (marked : search.Marked) (coherent : search.Coherent) :
    ∃ marks, search.marks = some marks ∧ search.markOf? = marks.get? ∧
      ∀ cell, (marks.get? cell).isSome = (search.position.board.get? cell).isSome := by
  obtain ⟨marks, shown⟩ := Option.isSome_iff_exists.mp marked.showing
  have same : search.markOf? = marks.get? := by
    unfold markOf?
    rw [shown]
    rfl
  refine ⟨marks, shown, same, fun cell => ?_⟩
  rw [← same, marked.cells cell, Bool.eq_iff_iff]
  exact (Board.isSome_of_keys_eq coherent.within.keys).symm

theorem refuted?_eq_none {turn : Turn κ σ}
    (onward : ∀ cell, turn.event? ≠ some (.rolledBack cell)) : turn.refuted? = none := by
  unfold Turn.refuted?
  split
  · rename_i cell back
    exact absurd back (onward cell)
  · rfl

/-- The snapshot of a step comes with marks for the cells of the board, which describe the step. -/
theorem shown_of_report (marked : search.Marked) (coherent : search.Coherent) {made : Report κ σ}
    (moved : search.move = .report made) {result : Step κ σ}
    (outcome : made.turn.outcome = .ok result) :
    ∃ marks, result.snapshot.marks = some marks ∧
      (∀ cell, (marks.get? cell).isSome =
        (result.snapshot.position.board.get? cell).isSome) ∧
      result.snapshot.event.ShownBy made.turn.refuted? marks.get? := by
  obtain ⟨after, verdict, notices⟩ := made
  cases verdict with
  | failed => cases outcome
  | progress event =>
    cases outcome
    have changed : search.Moves (some event) after := moves_of_progress moved rfl
    have marked' := marked.moves coherent changed
    obtain ⟨marks, shown, same, cells⟩ := marked'.exists_marks (coherent.moves changed)
    refine ⟨marks, shown, cells, ?_⟩
    rw [← same]
    by_cases back : ∃ cell, event = .rolledBack cell
    · obtain ⟨cell, rfl⟩ := back
      exact shownBy_of_rolledBack marked coherent moved rfl
    · have onward : ∀ cell, event ≠ .rolledBack cell := not_exists.mp back
      have unrefuted : (Report.turn ⟨after, .progress event, notices⟩).refuted? = none :=
        refuted?_eq_none fun cell same => onward cell (Option.some.inj same)
      rw [unrefuted]
      refine marked'.shownBy (changed.running coherent onward)
        (fun cell mark => changed.marking marked.showing) ?_
      rintro rfl
      cases changed with
      | tended tends => cases tends
  | done =>
    cases outcome
    have answer := search.answers_move
    rw [moved] at answer
    cases answer with
    | done _ idle unselected =>
      obtain ⟨marks, shown, same, cells⟩ := marked.exists_marks coherent
      refine ⟨marks, shown, cells, ?_⟩
      have unrefuted : (Report.turn ⟨search, .done, notices⟩).refuted? = none :=
        refuted?_eq_none fun _ back => by cases back
      rw [← same, unrefuted]
      have running := coherent.retry_eq_none fun id cell selected => by
        cases unselected.symm.trans selected.lowest
      exact marked.shownBy running nofun fun _ => idle

/-- After a check was shown it is made: its neighbour is found in order or loses candidates, or the
search turns back. -/
theorem IsChecking.next {cell : κ} (checking : search.IsChecking cell)
    (showing : search.isShowing = true) (unfinished : search.finished = false) :
    search.step.event? = some (.inspected cell .noChange) ∨
      (∃ source, search.step.event? = some (.updated source cell)) ∨
      (∃ undone, search.step.event? = some (.rolledBack undone)) ∨
      search.step.outcome = .error (.error .unsatisfiable) := by
  obtain ⟨visit, check, checks, target, taken, rfl, inspected, undecided⟩ := checking
  have found : (search.withChecks visit checks).position.board.get? check.neighbour =
      some target := taken.found
  have showing' : (search.withChecks visit checks).isShowing = true := showing
  have settled := Cell.tile?_eq_none_iff.mpr undecided
  have step : ∀ {made}, (search.withChecks visit checks).examine visit.source check =
      .report made → search.step = made.turn := fun examined =>
    step_of_move unfinished (taken.move_eq.trans examined)
  by_cases supported : target.candidates.isSubset check.allowed = true
  · have examined : (search.withChecks visit checks).examine visit.source check =
        .report (.inspected (search.withChecks visit checks) check.neighbour .noChange) := by
      simp [examine, found, settled, showing', inspected, supported]
    rw [step examined]
    exact .inl rfl
  by_cases empty : (target.candidates.inter check.allowed).count = 0
  · have examined : (search.withChecks visit checks).examine visit.source check =
        .report ((search.withChecks visit checks).contradict visit.source check.neighbour) := by
      simp [examine, found, settled, showing', inspected, supported, constrain, empty]
    rw [step examined]
    rcases retreat_turn ((search.withChecks visit checks).mark check.neighbour .conflict)
        [.contradiction visit.source check.neighbour] with ⟨_, made, _, -, -, back⟩ | ⟨-, failed⟩
    · exact .inr (.inr (.inl ⟨made.cell, Turn.reports_iff.mp back⟩))
    · exact .inr (.inr (.inr failed))
  · obtain ⟨tile, left⟩ := Candidates.exists_mem_of_count_ne_zero empty
    have within : ∀ tile ∈ target.candidates.inter check.allowed, tile ∈ target.candidates :=
      fun tile member => (Candidates.mem_inter.mp member).1
    obtain ⟨cell, restricted⟩ := Cell.exists_restrict within
    obtain ⟨notices, examined⟩ := taken.examine_of_cut undecided (fun _ => inspected)
      (Candidates.exists_mem_of_not_isSubset (by simpa using supported))
      ⟨tile, Candidates.mem_inter.mp left⟩ restricted
    rw [step examined]
    exact .inr (.inl ⟨visit.source, rfl⟩)

/-- A step that turns back does so at a contradiction, which it names, or because all candidates
were tried. -/
theorem cause_of_step {cell : κ} (back : search.step.event? = some (.rolledBack cell)) :
    ∃ last, search.Quiets last ∧
      ((∃ refuted, search.step.refuted? = some refuted ∧ last.RefutedAt refuted) ∨
        search.step.refuted? = none ∧ last.Spent) := by
  obtain ⟨unfinished, -⟩ := moves_of_event? back
  obtain ⟨last, quiets, reported⟩ := search.quiets_advance
  rw [step_of_unfinished unfinished] at back ⊢
  generalize search.advance = made at reported back ⊢
  obtain ⟨after, verdict, notices⟩ := made
  cases verdict with
  | done | failed => cases back
  | progress event =>
    cases back
    refine ⟨last, quiets, ?_⟩
    rcases turns_back reported rfl with ⟨refuted, cause, -, named⟩ | ⟨spent, -, named⟩
    · exact .inl ⟨refuted, named, cause⟩
    · exact .inr ⟨named, spent⟩

theorem shown_afterSteps (marked : search.Marked) (coherent : search.Coherent) {steps : Nat}
    {result : Step κ σ} (outcome : (search.afterSteps steps).step.outcome = .ok result) :
    ∃ marks, result.snapshot.marks = some marks ∧
      (∀ cell, (marks.get? cell).isSome =
        (result.snapshot.position.board.get? cell).isSome) ∧
      result.snapshot.event.ShownBy (search.afterSteps steps).step.refuted? marks.get? := by
  cases finished : (search.afterSteps steps).finished with
  | true =>
    rw [step_of_finished finished] at outcome
    cases outcome
  | false =>
    obtain ⟨last, quiets, reported⟩ := (search.afterSteps steps).quiets_advance
    have reaches : search.Reaches last := (reaches_of_unfinished finished).quiets quiets
    rw [step_of_unfinished finished] at outcome ⊢
    exact shown_of_report (marked.reaches coherent reaches) (coherent.reaches reaches) reported
      outcome

theorem next_of_checked (marked : search.Marked) (coherent : search.Coherent) {steps : Nat}
    {cell : κ}
    (reported : (search.afterSteps steps).step.event? = some (.inspected cell .checked)) :
    (search.afterSteps (steps + 1)).step.event? = some (.inspected cell .noChange) ∨
      (∃ source, (search.afterSteps (steps + 1)).step.event? = some (.updated source cell)) ∨
      (∃ undone, (search.afterSteps (steps + 1)).step.event? = some (.rolledBack undone)) ∨
      (search.afterSteps (steps + 1)).step.outcome = .error (.error .unsatisfiable) := by
  obtain ⟨unfinished, last, quiets, moved⟩ := moves_of_event? reported
  have reached := reaches_of_unfinished unfinished
  have reaches := reached.quiets quiets
  have coherent' := coherent.reaches reaches
  have marked' := marked.reaches coherent reaches
  have shown := marked'.moves coherent' moved
  have checking := shown.warranted (moved.running coherent' nofun) cell _
    (moved.marking marked'.showing rfl)
  refine checking.next shown.showing ?_
  rw [(reaches.move moved).finished, ← reached.finished]
  exact unfinished

end Search

end Tiling
