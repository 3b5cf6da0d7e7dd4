import Tiling.Command.Turned
import Tiling.Proofs.Search.Shown
import Tiling.Proofs.Search.Termination
import Tiling.Proofs.Starting

/-!
Marks throughout a run. Those of every step describe it, so that a program that looks at the marks
counts the contradictions.
-/

namespace Tiling

variable {κ τ σ π : Type} [Key κ] [Key σ] [Key π]

namespace Command.Turned

/-- Counting the steps that show a conflict counts those that turn back at a contradiction. -/
theorem conflicts_observe (record : Record) {turn : Turn Nat Direction}
    (shown : ∀ result, turn.outcome = .ok result → ∃ marks, result.snapshot.marks = some marks ∧
      result.snapshot.event.ShownBy turn.refuted? marks.get?) :
    (record.observe turn).conflicts = record.conflicts + turn.refuted?.isSome.toNat := by
  unfold Record.observe
  split
  · rename_i snapshot outcome
    obtain ⟨marks, held, shown⟩ := shown _ outcome
    have counted : marks.values.any (· = .conflict) = turn.refuted?.isSome := by
      rw [Bool.eq_iff_iff, Option.isSome_iff_exists]
      simp [SortedMap.values, ← shown.conflict, SortedMap.get?_eq_some_iff]
    have held : snapshot.marks = some marks := held
    simp [held, counted]
  · rename_i other
    have silent : turn.event? = none := by
      unfold Turn.event?
      split
      · rename_i snapshot outcome
        exact absurd outcome (other snapshot)
      · rfl
    rw [Search.refuted?_eq_none (by simp [silent])]
    rfl

theorem conflicts_turns {first : Search Nat Direction} (marked : first.Marked)
    (coherent : first.Coherent) (steps : Nat) :
    ((first.turns steps).foldl Record.observe {}).conflicts =
      (first.turns steps).countP (·.refuted?.isSome) := by
  induction steps with
  | zero => rfl
  | succ steps ih =>
    rw [Search.turns, List.foldl_append, List.countP_append, ← ih]
    refine (conflicts_observe _ fun result outcome => ?_).trans ?_
    · obtain ⟨marks, held, -, shown⟩ := Search.shown_afterSteps marked coherent outcome
      exact ⟨marks, held, shown⟩
    · rw [List.countP_singleton]
      cases (first.afterSteps steps).step.refuted? <;> rfl

end Command.Turned

theorem Problem.marked_of_started {problem : Problem κ τ σ π} (showing : problem.showing = true)
    {first : Search κ σ} (started : problem.start.outcome = .ok first) :
    first.Marked ∧ first.Coherent ∧
      ∃ constraints : Constraints κ τ σ π, constraints.Starts first := by
  obtain ⟨constraints, same, -⟩ := problem.exists_constraints started
  rw [same, showing] at started
  have starts : constraints.Starts first := ⟨_, _, _, started⟩
  exact ⟨Constraints.marked_of_started started, starts.opens.coherent, constraints, starts⟩

/-- In a search that shows its work, the marks that come with a step are on the cells of the board
and describe it. A conflict is shown by the steps that turn back at a contradiction and no others,
so that counting those that show one counts these; and a check that is shown is made by the next
step. -/
theorem marks_describe {problem : Problem κ τ σ π} (showing : problem.showing = true)
    {first : Search κ σ} (started : problem.start.outcome = .ok first) :
    (∀ steps result, (first.afterSteps steps).step.outcome = .ok result →
      ∃ marks, result.snapshot.marks = some marks ∧
        (∀ cell, (marks.get? cell).isSome =
          (result.snapshot.position.board.get? cell).isSome) ∧
        result.snapshot.event.ShownBy (first.afterSteps steps).step.refuted? marks.get?) ∧
    (∀ steps cell, (first.afterSteps steps).step.event? = some (.rolledBack cell) →
      ∃ last, (first.afterSteps steps).Quiets last ∧
        ((∃ refuted, (first.afterSteps steps).step.refuted? = some refuted ∧
            last.RefutedAt refuted) ∨
          (first.afterSteps steps).step.refuted? = none ∧ last.Spent)) ∧
    (∀ steps cell, (first.afterSteps steps).step.event? = some (.inspected cell .checked) →
      (first.afterSteps (steps + 1)).step.event? = some (.inspected cell .noChange) ∨
      (∃ source, (first.afterSteps (steps + 1)).step.event? = some (.updated source cell)) ∨
      (∃ undone, (first.afterSteps (steps + 1)).step.event? = some (.rolledBack undone)) ∨
      (first.afterSteps (steps + 1)).step.outcome = .error (.error .unsatisfiable)) ∧
    ∀ (settings : Command.Turned.Settings) (catalog : Catalog String Direction Bool)
      (search : Search Nat Direction), (settings.problem catalog).start.outcome = .ok search →
      ∃ last record, search.follow Command.Turned.Record.observe search.stepBound {} =
          some (record, (search.afterSteps last).step) ∧
        record.conflicts = (search.turns (last + 1)).countP (·.refuted?.isSome) := by
  obtain ⟨marked, coherent, -⟩ := Problem.marked_of_started showing started
  refine ⟨fun steps result => Search.shown_afterSteps marked coherent,
    fun steps cell => Search.cause_of_step,
    fun steps cell => Search.next_of_checked marked coherent,
    fun settings catalog search started => ?_⟩
  obtain ⟨marked, coherent, constraints, starts⟩ := Problem.marked_of_started rfl started
  obtain ⟨last, few, going, ended⟩ := Search.exists_last_step starts
  have enough := Nat.lt_of_le_of_lt few (Search.rank_lt_stepBound starts)
  exact ⟨last, _, Search.follow_eq_foldl _ going ended enough _,
    Command.Turned.conflicts_turns marked coherent (last + 1)⟩

private theorem exists_started_turned :
    ∃ catalog first, Command.Turned.catalog = .ok catalog ∧
      (Command.Turned.Settings.problem ⟨2, 0, false⟩ catalog).start.outcome = .ok first := by
  have computed : (Command.Turned.catalog.toOption.any fun catalog =>
      (Command.Turned.Settings.problem ⟨2, 0, false⟩ catalog).start.outcome.toOption.any
        fun _ => true) = true := by
    decide +kernel
  obtain ⟨catalog, made, computed⟩ := exists_ok_of_any computed
  obtain ⟨first, started, -⟩ := exists_ok_of_any computed
  exact ⟨catalog, first, made, started⟩

/-- The second cell conflicts with itself on its second tile, and then with both tried on it the
decision before is undone without a conflict. With turned tiles a search starts on two by two cells,
and its conflicts are counted to the end. -/
theorem marks_describe_contradictory :
    ∃ first, (Constraints.contradictory.problem none (fun _ => 0) true).start.outcome = .ok first ∧
      (∃ result marks, (first.afterSteps 7).step.outcome = .ok result ∧
        result.snapshot.marks = some marks ∧ marks.get? 1 = some .conflict) ∧
      (∃ last, (first.afterSteps 8).Quiets last ∧ last.Spent) ∧
      ∃ catalog search, Command.Turned.catalog = .ok catalog ∧
        (Command.Turned.Settings.problem ⟨2, 0, false⟩ catalog).start.outcome = .ok search ∧
        ∃ last record, search.follow Command.Turned.Record.observe search.stepBound {} =
            some (record, (search.afterSteps last).step) ∧
          record.conflicts = (search.turns (last + 1)).countP (·.refuted?.isSome) := by
  have computed : ((Constraints.contradictory.problem none (fun _ => 0)
      true).start.outcome.toOption.any fun first =>
        (first.turnWithin 8 7).any (fun turn =>
          turn.event? = some (.rolledBack 1) && turn.refuted? = some 1) &&
        (first.turnWithin 8 8).any (fun turn =>
          turn.event? = some (.rolledBack 0) && turn.refuted? = none)) = true := by
    decide +kernel
  obtain ⟨first, started, computed⟩ := exists_ok_of_any computed
  obtain ⟨earlier, later⟩ := Bool.and_eq_true_iff.mp computed
  obtain ⟨conflicting, refuted⟩ := Bool.and_eq_true_iff.mp (Search.of_turnWithin earlier)
  obtain ⟨back, unrefuted⟩ := Bool.and_eq_true_iff.mp (Search.of_turnWithin later)
  obtain ⟨shown, causes, -, counts⟩ := marks_describe rfl started
  obtain ⟨catalog, search, made, begun⟩ := exists_started_turned
  refine ⟨first, started, ?_, ?_, catalog, search, made, begun, counts _ catalog search begun⟩
  · obtain ⟨snapshot, outcome, -⟩ := Turn.reports_iff.mpr (of_decide_eq_true conflicting)
    obtain ⟨marks, held, -, described⟩ := shown 7 _ outcome
    exact ⟨_, marks, outcome, held, (described.conflict 1).mpr (of_decide_eq_true refuted)⟩
  · obtain ⟨last, quiets, ⟨_, named, -⟩ | ⟨-, spent⟩⟩ := causes 8 0 (of_decide_eq_true back)
    · cases (of_decide_eq_true unrefuted).symm.trans named
    · exact ⟨last, quiets, spent⟩

end Tiling
