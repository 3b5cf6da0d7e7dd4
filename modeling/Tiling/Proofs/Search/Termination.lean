import Tiling.Proofs.Search.Rank
import Tiling.Proofs.Search.Turns

/-!
Every search ends. The rank of a search that starts is below a bound that depends on its
constraints alone, so within as many steps there is one that makes no progress, and running the
search finds it. No two decisions of a run lead to the same list of decisions.
-/

namespace Tiling

variable {κ τ σ π : Type} [Key κ] [Key σ] [Key π] {constraints : Constraints κ τ σ π}

namespace Constraints

/-- A bound on the steps of the searches that these constraints start. -/
def stepBound (constraints : Constraints κ τ σ π) : Nat :=
  constraints.board.stepBound constraints.adjacency constraints.catalog.size

theorem Starts.stepBound {search : Search κ σ} (starts : constraints.Starts search) :
    search.stepBound = constraints.stepBound := by
  have opens := starts.opens
  have size : search.rules.start.board.size = constraints.board.size :=
    Board.size_eq_of_keys_eq opens.trimmed.keys
  simp only [Search.stepBound, Constraints.stepBound, Board.stepBound, opens.tileCount,
    opens.adjacency, opens.trimmed.keys, size]

end Constraints

namespace Search

variable {first : Search κ σ}

theorem phases_le (rules : Rules κ σ) : rules.phases ≤
    (rules.cells * rules.tileCount + rules.cells + 1) * (2 * rules.degree + 2) + 1 := by
  have whole : (rules.cells * rules.tileCount + rules.cells + 1) * (2 * rules.degree + 2) =
      rules.cells * rules.tileCount * (2 * rules.degree + 2) +
        (rules.cells + 1) * (2 * rules.degree + 2) := by
    rw [Nat.add_assoc, Nat.add_mul]
  have fewer : (rules.cells + 1) * (2 * rules.degree + 1) ≤
      (rules.cells + 1) * (2 * rules.degree + 2) := Nat.mul_le_mul_left _ (by omega)
  rw [Rules.phases, whole]
  omega

/-- The budget of a run is above the rank of the search. -/
theorem rank_lt_stepBound (starts : constraints.Starts first) : first.rank < first.stepBound := by
  have opens := starts.opens
  have reaches : first.Reaches first := .start
  have queued : first.pending.length ≤ first.rules.cells + 1 := by
    have few := opens.nodup.length_le_of_subset opens.listed
    rw [SortedMap.length_keys] at few
    have size : first.rules.cells = constraints.board.size :=
      Board.size_eq_of_keys_eq opens.trimmed.keys
    rw [size]
    exact Nat.le_succ_of_le few
  have phase := phase_lt (reaches.volume_le starts) queued opens.visit
  have order : first.order + 1 ≤ 2 * (first.rules.tileCount + 1) ^ first.rules.cells + 1 := by
    have fewer := treeSize_lt_pow first.rules.tileCount first.rules.cells
    have ahead : first.ahead = treeSize first.rules.tileCount first.rules.cells := by
      simp [ahead, unopened, opens.trail, opens.retry, Trail.empty, Rules.standing, Trail.level,
        Trail.decisions, Trail.toList]
    have level : first.trail.level = 0 := by
      rw [opens.trail]
      rfl
    rw [Search.order, ahead, level]
    omega
  have product := Nat.mul_le_mul order (phases_le first.rules)
  rw [Nat.add_one_mul first.order] at product
  have bound : first.stepBound = (2 * (first.rules.tileCount + 1) ^ first.rules.cells + 1) *
      ((first.rules.cells * first.rules.tileCount + first.rules.cells + 1) *
        (2 * first.rules.degree + 2) + 1) + 1 := rfl
  rw [bound, rank]
  have phases := phases_le first.rules
  omega

/-- As long as all steps make progress, each of them lowers the rank. -/
theorem rank_afterSteps (starts : constraints.Starts first) {steps : Nat}
    (going : ∀ earlier < steps, (first.afterSteps earlier).step.isProgress = true) :
    (first.afterSteps steps).rank + steps ≤ first.rank := by
  induction steps with
  | zero => exact Nat.le_refl _
  | succ steps ih =>
    have lower := ih fun earlier less => going earlier (Nat.lt_succ_of_lt less)
    obtain ⟨event, reported⟩ := Turn.reports_of_isProgress (going steps (Nat.lt_succ_self steps))
    obtain ⟨reaches, last, quiets, moved⟩ := reaches_of_reports reported
    have quiet := quiets.rank starts reaches
    have least : (first.afterSteps (steps + 1)).rank + 1 ≤ last.rank :=
      (reaches.quiets quiets).rank starts moved
    omega

/-- Some step within the rank makes no progress, and all before it do. -/
theorem exists_last_step (starts : constraints.Starts first) :
    ∃ steps ≤ first.rank,
      (∀ earlier < steps, (first.afterSteps earlier).step.isProgress = true) ∧
      (first.afterSteps steps).step.isProgress = false := by
  by_cases ended : ∃ steps, (first.afterSteps steps).step.isProgress = false
  · have going : ∀ earlier < Nat.find ended,
        (first.afterSteps earlier).step.isProgress = true := by
      intro earlier less
      simpa using Nat.find_min ended less
    have lower := rank_afterSteps starts going
    exact ⟨Nat.find ended, by omega, going, Nat.find_spec ended⟩
  · have going : ∀ earlier < first.rank + 1,
        (first.afterSteps earlier).step.isProgress = true := by
      intro earlier _
      simpa using not_exists.mp ended earlier
    have lower := rank_afterSteps starts going
    omega

theorem follow_eq_foldl {β : Type} (observe : β → Turn κ σ → β) {search : Search κ σ} {steps : Nat}
    (going : ∀ earlier < steps, (search.afterSteps earlier).step.isProgress = true)
    (ended : (search.afterSteps steps).step.isProgress = false) {budget : Nat}
    (enough : steps < budget) (seen : β) :
    search.follow observe budget seen =
      some ((search.turns (steps + 1)).foldl observe seen, (search.afterSteps steps).step) := by
  induction steps generalizing search budget seen with
  | zero =>
    obtain ⟨budget, rfl⟩ : ∃ more, budget = more + 1 := ⟨budget - 1, by omega⟩
    have ended : search.step.isProgress = false := ended
    simp only [follow, ended]
    rfl
  | succ steps ih =>
    obtain ⟨budget, rfl⟩ : ∃ more, budget = more + 1 := ⟨budget - 1, by omega⟩
    have first : search.step.isProgress = true := going 0 (Nat.succ_pos steps)
    simp only [follow, first, if_true]
    rw [turns_succ, List.foldl_cons]
    rw [afterSteps_succ] at ended ⊢
    apply ih
    · intro earlier less
      rw [← afterSteps_succ]
      exact going (earlier + 1) (Nat.succ_lt_succ less)
    · exact ended
    · omega

theorem follow_eq {β : Type} (observe : β → Turn κ σ → β) {search : Search κ σ} {steps : Nat}
    (going : ∀ earlier < steps, (search.afterSteps earlier).step.isProgress = true)
    (ended : (search.afterSteps steps).step.isProgress = false) {budget : Nat}
    (enough : steps < budget) (seen : β) :
    ∃ all, search.follow observe budget seen = some (all, (search.afterSteps steps).step) :=
  ⟨_, follow_eq_foldl observe going ended enough seen⟩

theorem finished_of_ended {search : Search κ σ} (ended : search.step.isProgress = false) :
    search.step.after.finished = true := by
  have taken := search.steps_step
  generalize search.step = turn at taken ended
  cases taken with
  | progress => cases ended
  | done | failed => rfl
  | refused finished => exact finished

/-- The decisions that a collapse leads to are not those that an earlier step led to. -/
theorem choices_ne (starts : constraints.Starts first) {earlier later : Nat}
    (less : earlier < later) {cell : κ} {tile : Nat}
    (settles : (first.afterSteps later).step.Reports (.collapsed cell tile)) :
    (first.afterSteps (earlier + 1)).trail.choices ≠
      (first.afterSteps (later + 1)).trail.choices := by
  obtain ⟨whole, -⟩ := reaches_of_reports settles
  obtain ⟨rest, rfl⟩ := Nat.exists_eq_add_of_le less
  have shift : first.afterSteps (earlier + 1 + rest + 1) =
      (first.afterSteps (earlier + 1)).afterSteps (rest + 1) := afterSteps_add first _ (rest + 1)
  rw [afterSteps_add first (earlier + 1)] at settles whole
  obtain ⟨reaches, last, quiets, moved⟩ := reaches_of_reports settles
  have unfinished : (first.afterSteps (earlier + 1)).finished = false :=
    reaches.finished.symm.trans (whole.finished.trans starts.opens.finished)
  have coherent := (reaches_of_unfinished unfinished).coherent starts
  have onward := reaches.quiets quiets
  have passed : last.Passed (first.afterSteps (earlier + 1)).trail.choices :=
    (Passed.standing (List.prefix_refl _)).reaches coherent onward
  rw [shift]
  exact passed.ne_of_collapsed (coherent.reaches onward) moved

/-- Every step returns, every search ends within a number of steps that its constraints bound, and
no two decisions of a run lead to the same list of decisions. -/
theorem terminates (constraints : Constraints κ τ σ π) :
    (∀ search : Search κ σ, search.advanceWithin (search.work + 1) = some search.advance) ∧
    ∃ bound, ∀ first, constraints.Starts first →
      (∃ steps < bound,
        (∀ earlier < steps, (first.afterSteps earlier).step.isProgress = true) ∧
        (first.afterSteps steps).step.isProgress = false ∧
        (∃ notices, first.run = some (notices, (first.afterSteps steps).step)) ∧
        (first.afterSteps (steps + 1)).next? = none) ∧
      ∀ earlier later, earlier < later → ∀ cell tile cell' tile',
        (first.afterSteps earlier).step.Reports (.collapsed cell tile) →
        (first.afterSteps later).step.Reports (.collapsed cell' tile') →
        (first.afterSteps (earlier + 1)).trail.choices ≠
          (first.afterSteps (later + 1)).trail.choices := by
  refine ⟨fun search => advanceWithin_eq_advance (Nat.lt_succ_self search.work),
    constraints.stepBound, fun first starts => ⟨?_, ?_⟩⟩
  · obtain ⟨steps, few, going, ended⟩ := exists_last_step starts
    have enough : steps < first.stepBound := Nat.lt_of_le_of_lt few (rank_lt_stepBound starts)
    refine ⟨steps, starts.stepBound ▸ enough, going, ended, follow_eq _ going ended enough _, ?_⟩
    rw [next?, afterSteps, finished_of_ended ended]
    rfl
  · intro earlier later less cell tile cell' tile' _ settles
    exact choices_ne starts less settles

/-- The second cell is settled twice with the same decision before it, each time on another tile,
and the run ends. -/
theorem terminates_oneSided :
    ∃ first, Constraints.oneSided.Starts first ∧
      (first.afterSteps 1).step.Reports (.collapsed 1 0) ∧
      (first.afterSteps 3).step.Reports (.collapsed 1 1) ∧
      (first.afterSteps 2).trail.choices ≠ (first.afterSteps 4).trail.choices ∧
      ∃ steps notices, first.run = some (notices, (first.afterSteps steps).step) := by
  have computed : ((Constraints.oneSided.problem none (fun _ => 0) false).start.outcome.toOption.any
      fun first => (first.turnWithin 8 1).any (·.event? = some (.collapsed 1 0)) &&
        (first.turnWithin 8 3).any (·.event? = some (.collapsed 1 1))) = true := by decide +kernel
  obtain ⟨first, starts, computed⟩ := Constraints.exists_starts computed
  obtain ⟨earlier, later⟩ := Bool.and_eq_true_iff.mp computed
  have earlier := Turn.reports_iff.mpr (of_decide_eq_true (of_turnWithin earlier))
  have later := Turn.reports_iff.mpr (of_decide_eq_true (of_turnWithin later))
  obtain ⟨-, bound, ends⟩ := terminates Constraints.oneSided
  obtain ⟨⟨steps, -, -, -, ⟨notices, run⟩, -⟩, distinct⟩ := ends first starts
  exact ⟨first, starts, earlier, later, distinct 1 3 (by decide) 1 0 1 1 earlier later, steps,
    notices, run⟩

end Search

end Tiling
