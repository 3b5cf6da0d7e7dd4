import Tiling.Proofs.Search.Exact
import Tiling.Proofs.Search.Soundness
import Tiling.Proofs.Search.Tree

/-!
What a search gives up. It turns back only where no solution agrees with its decisions, it fails for
want of one only if there is none, and as long as its decisions follow a solution it does neither.
-/

namespace Tiling

variable {κ τ σ π : Type} [Key κ] [Key σ] [Key π] {constraints : Constraints κ τ σ π}

theorem Trail.exists_of_decisions {trail : Trail κ σ} {before newer : List (Decision κ σ)}
    {made : Decision κ σ} (split : trail.decisions = before ++ made :: newer) :
    ∃ later older, trail.newestFirst = later ++ .decision made :: older ∧
      Trail.decisions ⟨older⟩ = before := by
  obtain ⟨entries⟩ := trail
  induction entries generalizing newer with
  | nil => simp [decisions, toList] at split
  | cons entry rest ih =>
    cases entry with
    | narrowing narrowed =>
      rw [decisions_narrowing] at split
      obtain ⟨later, older, stands, same⟩ := ih split
      exact ⟨.narrowing narrowed :: later, older, congrArg (_ :: ·) stands, same⟩
    | decision latest =>
      rw [decisions_decision] at split
      rcases newer.eq_nil_or_concat with rfl | ⟨others, last, rfl⟩
      · obtain ⟨same, only⟩ := List.append_inj' split rfl
        cases only
        exact ⟨[], rest, rfl, same⟩
      · have split : Trail.decisions ⟨rest⟩ ++ [latest] = (before ++ made :: others) ++ [last] := by
          simpa using split
        obtain ⟨earlier, -⟩ := List.append_inj' split rfl
        obtain ⟨later, older, stands, same⟩ := ih earlier
        exact ⟨.decision latest :: later, older, congrArg (_ :: ·) stands, same⟩

namespace Search

variable {first search after : Search κ σ}

theorem Moves.stuck {cell : κ} (moved : search.Moves (some (.rolledBack cell)) after) :
    ∃ marks, search.Stuck marks := by
  cases moved with
  | tended tends => cases tends
  | undone stuck => exact ⟨_, stuck⟩

/-- No solution agrees with the decisions of a stuck search. -/
theorem Reaches.not_agrees (starts : constraints.Starts first) (reaches : first.Reaches search)
    {marks : Option (Marks κ)} (stuck : search.Stuck marks) {tiles : κ → Nat}
    (solution : constraints.Solution tiles) : ¬search.trail.Agrees tiles := by
  rw [← reaches.holds_iff_agrees starts solution]
  exact stuck.not_holds (reaches.justified starts) solution

/-- A tile tried and given up for a decision is that of no solution with the decisions before. -/
theorem Reaches.given_up (starts : constraints.Starts first) (reaches : first.Reaches search)
    {before newer : List (Decision κ σ)} {made : Decision κ σ}
    (split : search.trail.decisions = before ++ made :: newer) {tile : Nat}
    (tried : tile ∈ made.tried) (given : tile ≠ made.tile) {tiles : κ → Nat}
    (solution : constraints.Solution tiles)
    (agrees : ∀ earlier ∈ before, tiles earlier.cell = earlier.tile) :
    tiles made.cell ≠ tile := by
  obtain ⟨later, older, stands, rfl⟩ := Trail.exists_of_decisions split
  have chain : search.rules.Chain Position.Leads (later ++ .decision made :: older) :=
    stands ▸ (reaches.coherent starts).chain
  have justified : search.rules.Chain constraints.Justifies (later ++ .decision made :: older) :=
    stands ▸ (reaches.justified starts).chain
  have start : search.rules.start.board.Holds tiles := by
    rw [reaches.rules]
    exact solution.holds starts.opens.trimmed
  cases justified.follows with
  | decision refuted =>
    have holds := (solution.holds_iff_agrees start chain.before justified.before).mpr agrees
    rintro rfl
    exact given (refuted tiles solution holds tried)

/-- The steps before this one settle cells on the tiles of an assignment only. -/
def Follows (first : Search κ σ) (tiles : κ → Nat) (steps : Nat) : Prop :=
  ∀ earlier < steps, ∀ cell tile,
    (first.afterSteps earlier).step.Reports (.collapsed cell tile) → tiles cell = tile

theorem not_agrees_of_rolledBack (starts : constraints.Starts first) {steps : Nat} {cell : κ}
    (back : (first.afterSteps steps).step.Reports (.rolledBack cell)) {tiles : κ → Nat}
    (solution : constraints.Solution tiles) : ¬(first.afterSteps steps).trail.Agrees tiles := by
  obtain ⟨reaches, last, quiets, moved⟩ := reaches_of_reports back
  obtain ⟨marks, stuck⟩ := moved.stuck
  rw [← quiets.keeps.trail]
  exact (reaches.quiets quiets).not_agrees starts stuck solution

theorem not_solution_of_unsatisfiable (starts : constraints.Starts first) {steps : Nat}
    (failed : (first.afterSteps steps).step.outcome = .error (.error .unsatisfiable))
    (tiles : κ → Nat) : ¬constraints.Solution tiles := by
  intro solution
  obtain ⟨reaches, last, marks, quiets, stuck, undecided⟩ := reaches_of_unsatisfiable failed
  apply (reaches.quiets quiets).not_agrees starts stuck solution
  intro made member
  rw [undecided] at member
  cases member

theorem agrees_of_follows (starts : constraints.Starts first) {tiles : κ → Nat}
    (solution : constraints.Solution tiles) {steps : Nat} (follows : first.Follows tiles steps) :
    (first.afterSteps steps).trail.Agrees tiles := by
  induction steps with
  | zero =>
    intro made member
    rw [afterSteps, starts.opens.trail] at member
    cases member
  | succ steps ih =>
    have agrees := ih fun earlier less => follows earlier (Nat.lt_succ_of_lt less)
    have latest := follows steps (Nat.lt_succ_self steps)
    have taken := (first.afterSteps steps).steps_step
    rw [afterSteps]
    generalize (first.afterSteps steps).step = turn at taken latest
    cases taken with
    | @progress quiet after event notices unfinished quiets moved =>
      have reaches := (reaches_of_unfinished unfinished).quiets quiets
      have agrees : quiet.trail.Agrees tiles := quiets.keeps.trail ▸ agrees
      cases moved with
      | tended tends => exact tends.keeps.trail ▸ agrees
      | narrowed => exact Trail.agrees_narrowing.mpr agrees
      | settled => exact Trail.agrees_decision.mpr ⟨agrees, latest _ _ ⟨_, rfl, rfl⟩⟩
      | undone stuck => exact absurd agrees (reaches.not_agrees starts stuck solution)
    | done notices unfinished quiets => exact quiets.keeps.trail ▸ agrees
    | failed notices unfinished quiets kept =>
      exact (quiets.keeps.trans kept).trail ▸ agrees
    | refused finished => exact agrees

theorem holds_iff_agrees_afterSteps (starts : constraints.Starts first) (steps : Nat)
    {tiles : κ → Nat} (solution : constraints.Solution tiles) :
    (first.afterSteps steps).position.board.Holds tiles ↔
      (first.afterSteps steps).trail.Agrees tiles := by
  obtain ⟨last, reaches, kept, -⟩ := reaches_afterSteps first steps
  rw [kept.position, kept.trail]
  exact reaches.holds_iff_agrees starts solution

/-- Whatever is given up is refuted: problems that start no search or end one for want of a
solution, the decisions that stand when a search turns back, and the tiles given up for those
that stand. -/
theorem refutations_sound (constraints : Constraints κ τ σ π) :
    (∀ weighting draws showing,
      (constraints.problem weighting draws showing).start.outcome =
        .error (.error .unsatisfiable) →
      ∀ tiles, ¬constraints.Solution tiles) ∧
    ∀ first, constraints.Starts first → ∀ steps,
      ((first.afterSteps steps).step.outcome = .error (.error .unsatisfiable) →
        ∀ tiles, ¬constraints.Solution tiles) ∧
      (∀ cell, (first.afterSteps steps).step.Reports (.rolledBack cell) →
        ∀ tiles, constraints.Solution tiles → ¬(first.afterSteps steps).trail.Agrees tiles) ∧
      ∀ before made newer,
        (first.afterSteps steps).trail.decisions = before ++ made :: newer →
        ∀ tile ∈ made.tried, tile ≠ made.tile → ∀ tiles, constraints.Solution tiles →
          (∀ earlier ∈ before, tiles earlier.cell = earlier.tile) → tiles made.cell ≠ tile := by
  constructor
  · intro weighting draws showing failed
    exact Constraints.not_solution_of_unsatisfiable failed
  · intro first starts steps
    refine ⟨not_solution_of_unsatisfiable starts, ?_, ?_⟩
    · intro cell back tiles solution
      exact not_agrees_of_rolledBack starts back solution
    · intro before made newer split tile tried given tiles solution agrees
      obtain ⟨last, reaches, kept, -⟩ := reaches_afterSteps first steps
      rw [kept.trail] at split
      exact reaches.given_up starts split tried given solution agrees

/-- The search turns back from the same tile on both cells, and gives up in the end. -/
theorem refutations_sound_contradictory :
    ∃ first, Constraints.contradictory.Starts first ∧
      (first.afterSteps 2).step.Reports (.rolledBack 1) ∧
      (first.afterSteps 2).trail.choices = [(0, 0), (1, 0)] ∧
      (∀ tiles, Constraints.contradictory.Solution tiles →
        ¬(first.afterSteps 2).trail.Agrees tiles) ∧
      (first.afterSteps 12).step.outcome = .error (.error .unsatisfiable) ∧
      ∀ tiles, ¬Constraints.contradictory.Solution tiles := by
  have computed : ((Constraints.contradictory.problem none (fun _ => 0)
      false).start.outcome.toOption.any fun first =>
        (first.turnWithin 8 1).any (·.after.trail.choices = [(0, 0), (1, 0)]) &&
        ((first.turnWithin 8 2).any (·.event? = some (.rolledBack 1)) &&
          (first.turnWithin 8 12).any Turn.isUnsatisfiable)) = true := by decide +kernel
  obtain ⟨first, starts, computed⟩ := Constraints.exists_starts computed
  obtain ⟨stands, computed⟩ := Bool.and_eq_true_iff.mp computed
  obtain ⟨back, ended⟩ := Bool.and_eq_true_iff.mp computed
  have back : (first.afterSteps 2).step.Reports (.rolledBack 1) :=
    Turn.reports_iff.mpr (of_decide_eq_true (of_turnWithin back))
  have failed := Turn.outcome_of_isUnsatisfiable (of_turnWithin ended)
  obtain ⟨-, sound⟩ := refutations_sound Constraints.contradictory
  exact ⟨first, starts, back, of_decide_eq_true (of_turnWithin stands),
    (sound first starts 2).2.1 1 back, failed, (sound first starts 12).1 failed⟩

/-- The solutions on the board are those that agree with the decisions, at every step. A search
whose collapses follow a solution never turns back, and if it is done it has found that one. -/
theorem solutions_exact (starts : constraints.Starts first) {tiles : κ → Nat}
    (solution : constraints.Solution tiles) (steps : Nat) :
    ((first.afterSteps steps).position.board.Holds tiles ↔
      (first.afterSteps steps).trail.Agrees tiles) ∧
    (first.Follows tiles steps →
      (∀ cell, ¬(first.afterSteps steps).step.Reports (.rolledBack cell)) ∧
      (first.afterSteps steps).step.outcome ≠ .error (.error .unsatisfiable) ∧
      ∀ snapshot, (first.afterSteps steps).step.outcome = .ok (.done snapshot) →
        snapshot.position.board.assignment =
          constraints.board.cells.keys.map fun id => (id, tiles id)) := by
  refine ⟨holds_iff_agrees_afterSteps starts steps solution, fun follows => ?_⟩
  have agrees := agrees_of_follows starts solution follows
  refine ⟨fun cell back => ?_, fun failed => ?_, fun snapshot done => ?_⟩
  · exact not_agrees_of_rolledBack starts back solution agrees
  · exact not_solution_of_unsatisfiable starts failed tiles solution
  · have holds := (holds_iff_agrees_afterSteps starts steps solution).mpr agrees
    obtain ⟨reaches, last, quiets, -, uncollapsed, same⟩ := reaches_of_done done
    rw [← quiets.keeps.position] at holds
    rw [same, ← ((reaches.quiets quiets).given starts).1]
    apply Board.assignment_of_collapsed holds
    intro id cell
    exact Board.collapsed_of_uncollapsed_eq_zero uncollapsed

/-- Settling the first cell narrows the second one, and that is the solution followed. -/
theorem solutions_exact_twoSided :
    ∃ first snapshot, Constraints.twoSided.Starts first ∧ Constraints.twoSided.Solution id ∧
      first.Follows id 2 ∧ (first.afterSteps 2).step.outcome = .ok (.done snapshot) ∧
      ((first.afterSteps 2).position.board.Holds id ↔ (first.afterSteps 2).trail.Agrees id) ∧
      snapshot.position.board.assignment = [(0, 0), (1, 1)] := by
  have computed : ((Constraints.twoSided.problem none (fun _ => 0) false).start.outcome.toOption.any
      fun first => (first.turnWithin 8 0).any (·.event? = some (.collapsed 0 0)) &&
        ((first.turnWithin 8 1).any (·.event? = some (.updated 0 1)) &&
          (first.turnWithin 8 2).any Turn.isDone)) = true := by decide +kernel
  obtain ⟨first, starts, computed⟩ := Constraints.exists_starts computed
  obtain ⟨settles, computed⟩ := Bool.and_eq_true_iff.mp computed
  obtain ⟨narrows, ended⟩ := Bool.and_eq_true_iff.mp computed
  have solution : Constraints.twoSided.Solution id := by decide +kernel
  have follows : first.Follows id 2 := by
    intro earlier less cell tile reported
    have reported := Turn.reports_iff.mp reported
    match earlier, less with
    | 0, _ =>
      cases (of_decide_eq_true (of_turnWithin settles)).symm.trans reported
      rfl
    | 1, _ => cases (of_decide_eq_true (of_turnWithin narrows)).symm.trans reported
  obtain ⟨snapshot, done⟩ := Turn.exists_of_isDone (of_turnWithin ended)
  obtain ⟨exact, followed⟩ := solutions_exact starts solution 2
  exact ⟨first, snapshot, starts, solution, follows, done, exact,
    (followed follows).2.2 snapshot done⟩

end Search

end Tiling
