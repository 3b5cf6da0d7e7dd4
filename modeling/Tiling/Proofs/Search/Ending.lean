import Tiling.Proofs.Search.Contracts

/-!
The end of a search. It comes with the first step that makes no progress and not before. A step
that fails changes nothing but what was left to do, and after the end every call is refused and
leaves the search as it is.
-/

namespace Tiling

variable {κ σ : Type} [Key κ] [Key σ]

namespace Search

/-- What some calls give, in order. -/
def answers (search : Search κ σ) : List Call → List (Option (Turn κ σ))
  | [] => []
  | call :: calls =>
    search.call? call :: (((search.call? call).map (·.after)).getD search).answers calls

/-- The turns that an iterator over the search gives, in so many calls. -/
def yields (search : Search κ σ) (calls : Nat) : List (Turn κ σ) :=
  (search.answers (List.replicate calls .next)).reduceOption

/-- What a call gives that is refused. -/
def refusal? (search : Search κ σ) : Call → Option (Turn κ σ)
  | .step | .run => some { after := search, outcome := .error (.error .finished), notices := [] }
  | .next => none

variable {τ π : Type} [Key π] {constraints : Constraints κ τ σ π} {first search : Search κ σ}

theorem call?_of_finished (finished : search.finished = true) (call : Call) :
    search.call? call = search.refusal? call := by
  cases call with
  | step => exact congrArg some (step_of_finished finished)
  | next => exact if_pos finished
  | run =>
    obtain ⟨notices, run⟩ := run_of_finished finished
    rw [call?, run, step_of_finished finished]
    rfl

/-- After the end all calls are refused, and none changes the search. -/
theorem refused_of_finished (finished : search.finished = true) (calls : List Call) :
    search.answers calls = calls.map search.refusal? ∧ search.afterCalls calls = search := by
  have stays : ∀ call, ((search.refusal? call).map (·.after)).getD search = search := by
    intro call
    cases call <;> rfl
  induction calls with
  | nil => exact ⟨rfl, rfl⟩
  | cons call calls ih =>
    obtain ⟨answers, after⟩ := ih
    rw [Search.answers, afterCalls, call?_of_finished finished, stays, answers, after]
    exact ⟨rfl, rfl⟩

/-- A step finishes a search just if it makes no progress. -/
theorem finished_step (search : Search κ σ) :
    search.step.after.finished = !search.step.isProgress := by
  cases progress : search.step.isProgress with
  | false => exact finished_of_ended progress
  | true =>
    obtain ⟨event, reported⟩ := Turn.reports_of_isProgress progress
    obtain ⟨unfinished, last, quiets, moved⟩ := moves_of_event? (Turn.reports_iff.mp reported)
    exact ((Reaches.start.quiets quiets).move moved).finished.trans unfinished

theorem keeps_of_error {failure : Failure (SearchError κ σ)}
    (failed : search.step.outcome = .error failure) : search.Keeps search.step.after := by
  apply keeps_of_event?_eq_none
  rw [Turn.event?, failed]

theorem isProgress_of_error {turn : Turn κ σ} {failure : Failure (SearchError κ σ)}
    (failed : turn.outcome = .error failure) : turn.isProgress = false := by
  rw [Turn.isProgress, failed]

theorem finished_afterCalls_iff (starts : constraints.Starts first) (calls : List Call)
    {steps : Nat} (unfinished : (first.afterSteps steps).finished = false) :
    ((first.afterSteps steps).afterCalls calls).finished = true ↔
      ∃ turn, some turn ∈ (first.afterSteps steps).answers calls ∧ turn.isProgress = false := by
  induction calls generalizing steps with
  | nil => simp [afterCalls, answers, unfinished]
  | cons call calls ih =>
    rw [afterCalls, answers]
    cases called : (first.afterSteps steps).call? call with
    | none => simpa using ih unfinished
    | some turn =>
      obtain ⟨later, rfl⟩ := exists_step_of_call starts called
      have closes := (first.afterSteps later).finished_step
      change (first.afterSteps (later + 1)).finished = _ at closes
      change ((first.afterSteps (later + 1)).afterCalls calls).finished = true ↔ _
      cases progress : (first.afterSteps later).step.isProgress with
      | false =>
        have finished : (first.afterSteps (later + 1)).finished = true := by
          rw [closes, progress]
          rfl
        rw [(refused_of_finished finished calls).2]
        exact iff_of_true finished ⟨_, List.mem_cons_self, progress⟩
      | true =>
        have going : (first.afterSteps (later + 1)).finished = false := by
          rw [closes, progress]
          rfl
        rw [ih going]
        simp [progress, afterSteps]

theorem yields_of_finished (finished : search.finished = true) (calls : Nat) :
    search.yields calls = [] := by
  rw [yields, (refused_of_finished finished _).1]
  simp [refusal?, List.reduceOption]

theorem next_of_unfinished (unfinished : search.finished = false) (calls : Nat) :
    search.yields (calls + 1) = search.step :: search.step.after.yields calls ∧
      search.afterCalls (.replicate (calls + 1) .next) =
        search.step.after.afterCalls (.replicate calls .next) := by
  have called : search.call? .next = some search.step := if_neg (by simp [unfinished])
  simp only [yields, List.replicate_succ, answers, afterCalls, called]
  exact ⟨rfl, rfl⟩

/-- However often it is called, an iterator gives the turns up to the first without progress, and
leaves the search as they do. -/
theorem yields_eq_turns {last : Nat} (unfinished : search.finished = false)
    (going : ∀ earlier < last, (search.afterSteps earlier).step.isProgress = true)
    (ended : (search.afterSteps last).step.isProgress = false) {calls : Nat}
    (enough : last < calls) :
    search.yields calls = search.turns (last + 1) ∧
      search.afterCalls (.replicate calls .next) = search.afterSteps (last + 1) := by
  obtain ⟨calls, rfl⟩ : ∃ more, calls = more + 1 := ⟨calls - 1, by omega⟩
  obtain ⟨yields, after⟩ := next_of_unfinished unfinished calls
  rw [yields, after, turns_succ, afterSteps_succ]
  induction last generalizing search calls with
  | zero =>
    have finished : search.step.after.finished = true := finished_of_ended ended
    rw [yields_of_finished finished, (refused_of_finished finished _).2]
    exact ⟨rfl, rfl⟩
  | succ last ih =>
    have first : search.step.isProgress = true := going 0 (Nat.succ_pos last)
    have onward : search.step.after.finished = false := by
      rw [finished_step, first]
      rfl
    obtain ⟨calls, rfl⟩ : ∃ more, calls = more + 1 := ⟨calls - 1, by omega⟩
    obtain ⟨yields, after⟩ := next_of_unfinished onward calls
    rw [yields, after, turns_succ, afterSteps_succ]
    have rest := ih onward (fun earlier less => ?_) ?_ calls (by omega) yields after
    · exact ⟨congrArg (_ :: ·) rest.1, rest.2⟩
    · rw [← afterSteps_succ]
      exact going (earlier + 1) (Nat.succ_lt_succ less)
    · rw [← afterSteps_succ]
      exact ended

/-- A step that fails is atomic and final. It leaves position, trail, counts and draws as they were.
Whatever was called before, a search is finished once a call has ended it and not before; from then
on every call is refused and changes nothing. An iterator gives the turns up to the one that ends
the search, however often it is called. -/
theorem failing_final (starts : constraints.Starts first) (calls : List Call) :
    (∀ reason, (first.afterCalls calls).step.outcome = .error (.error reason) →
      (first.afterCalls calls).Keeps (first.afterCalls calls).step.after ∧
        (first.afterCalls calls).step.after.finished = true) ∧
    (∀ snapshot, (first.afterCalls calls).step.outcome = .ok (.done snapshot) →
      (first.afterCalls calls).step.after.finished = true) ∧
    ((first.afterCalls calls).finished = true ↔
      ∃ turn, some turn ∈ first.answers calls ∧ turn.isProgress = false) ∧
    ((first.afterCalls calls).finished = true → ∀ more,
      (first.afterCalls calls).answers more = more.map (first.afterCalls calls).refusal? ∧
        (first.afterCalls calls).afterCalls more = first.afterCalls calls) ∧
    ((first.afterCalls calls).finished = false → ∃ last,
      (∀ earlier < last,
        ((first.afterCalls calls).afterSteps earlier).step.isProgress = true) ∧
      ((first.afterCalls calls).afterSteps last).step.isProgress = false ∧
      ∀ enough > last,
        (first.afterCalls calls).yields enough = (first.afterCalls calls).turns (last + 1)) := by
  refine ⟨fun reason failed => ?_, fun snapshot ended => ?_, ?_, refused_of_finished,
    fun unfinished => ?_⟩
  · exact ⟨keeps_of_error failed, finished_of_ended (isProgress_of_error failed)⟩
  · apply finished_of_ended
    rw [Turn.isProgress, ended]
  · have unfinished : (first.afterSteps 0).finished = false := starts.opens.finished
    exact finished_afterCalls_iff starts calls unfinished
  · obtain ⟨steps, same⟩ := exists_steps_of_calls starts calls
    rw [same] at unfinished ⊢
    obtain ⟨last, -, going, ended⟩ := exists_end starts unfinished
    refine ⟨last, going, ended, fun enough more => ?_⟩
    exact (yields_eq_turns unfinished going ended more).1

/-- The thirteenth step of the contradictory problem fails, and what is called then is refused. -/
theorem failing_final_contradictory :
    ∃ first, Constraints.contradictory.Starts first ∧
      (first.afterCalls (.replicate 12 .step)).step.outcome = .error (.error .unsatisfiable) ∧
      (first.afterSteps 12).Keeps (first.afterSteps 13) ∧
      (first.afterCalls (.replicate 13 .step)).finished = true ∧
      (first.afterSteps 13).answers [.next, .run] =
        [none, some ⟨first.afterSteps 13, .error (.error .finished), []⟩] ∧
      ∃ last, ∀ enough > last, first.yields enough = first.turns (last + 1) := by
  have computed : ((Constraints.contradictory.problem none (fun _ => 0)
      false).start.outcome.toOption.any fun first =>
        (first.turnWithin 8 12).any Turn.isUnsatisfiable) = true := by decide +kernel
  obtain ⟨first, starts, ended⟩ := Constraints.exists_starts computed
  have failed : (first.afterCalls (.replicate 12 .step)).step.outcome =
      .error (.error .unsatisfiable) := Turn.outcome_of_isUnsatisfiable (of_turnWithin ended)
  obtain ⟨atomic, -⟩ := failing_final starts (.replicate 12 .step)
  obtain ⟨kept, finished⟩ := atomic _ failed
  obtain ⟨-, -, -, final, -⟩ := failing_final starts (.replicate 13 .step)
  obtain ⟨-, -, -, -, iterated⟩ := failing_final starts []
  obtain ⟨last, -, -, yields⟩ := iterated starts.opens.finished
  exact ⟨first, starts, failed, kept, finished, (final finished [.next, .run]).1, last, yields⟩

end Search

end Tiling
