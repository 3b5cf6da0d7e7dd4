import Tiling.Proofs.Search.Hidden
import Tiling.Proofs.Search.Termination

/-!
Showing changes nothing. The run of a search that shows its work is that of one that does not, with
inspections in between: with those left out, both report the same.
-/

namespace Tiling

variable {κ σ : Type} [Key κ] [Key σ]

namespace Search

variable {search : Search κ σ}

/-- The turns of so many steps without those that only show a cell, as they are when nothing is
shown. -/
def plainTurns (search : Search κ σ) (steps : Nat) : List (Turn κ σ) :=
  ((search.turns steps).filter (!·.isInspection)).map Turn.hidden

theorem plainTurns_succ (search : Search κ σ) (steps : Nat) :
    search.plainTurns (steps + 1) = search.plainTurns steps ++
      if (search.afterSteps steps).step.isInspection then []
      else [(search.afterSteps steps).step.hidden] := by
  rw [plainTurns, turns, List.filter_append, List.map_append, ← plainTurns]
  cases shown : (search.afterSteps steps).step.isInspection <;> simp [shown]

/-- After so many steps a search has told what it tells in fewer when nothing is shown, and both go
on in the same way. -/
structure Matches (search : Search κ σ) (steps fewer : Nat) : Prop where
  turns : search.plainTurns steps = search.hidden.turns fewer
  next : (search.afterSteps steps).hidden.step = (search.hidden.afterSteps fewer).step

variable {steps fewer : Nat}

theorem Matches.inspection (same : search.Matches steps fewer)
    (shown : (search.afterSteps steps).step.isInspection = true) :
    search.Matches (steps + 1) fewer := by
  rcases (search.afterSteps steps).hides_step with ⟨plain, -⟩ | ⟨-, next⟩
  · cases plain.symm.trans shown
  · refine ⟨?_, next.trans same.next⟩
    rw [plainTurns_succ, if_pos shown, List.append_nil, same.turns]

theorem Matches.turn (same : search.Matches steps fewer)
    (plain : (search.afterSteps steps).step.isInspection = false) :
    (search.hidden.afterSteps fewer).step = (search.afterSteps steps).step.hidden := by
  rcases (search.afterSteps steps).hides_step with ⟨-, next⟩ | ⟨shown, -⟩
  · exact same.next.symm.trans next
  · cases plain.symm.trans shown

theorem Matches.after (same : search.Matches steps fewer)
    (plain : (search.afterSteps steps).step.isInspection = false) :
    (search.afterSteps (steps + 1)).hidden = search.hidden.afterSteps (fewer + 1) :=
  congrArg Turn.after (same.turn plain).symm

theorem Matches.told (same : search.Matches steps fewer)
    (plain : (search.afterSteps steps).step.isInspection = false) :
    search.Matches (steps + 1) (fewer + 1) := by
  refine ⟨?_, congrArg step (same.after plain)⟩
  rw [plainTurns_succ, plain, same.turns, Search.turns, same.turn plain]
  rfl

/-- Every run tells what a run of fewer steps tells when nothing is shown. -/
theorem exists_matches (search : Search κ σ) (steps : Nat) :
    ∃ fewer, search.Matches steps fewer := by
  induction steps with
  | zero => exact ⟨0, rfl, rfl⟩
  | succ steps ih =>
    obtain ⟨fewer, same⟩ := ih
    cases shown : (search.afterSteps steps).step.isInspection with
    | true => exact ⟨fewer, same.inspection shown⟩
    | false => exact ⟨fewer + 1, same.told shown⟩

theorem Matches.exists_succ (gap : Nat) (same : search.Matches steps fewer)
    (ended : ∀ later, steps + gap ≤ later →
      (search.afterSteps later).step.isInspection = false) :
    ∃ more, search.Matches more (fewer + 1) := by
  induction gap generalizing steps with
  | zero => exact ⟨steps + 1, same.told (ended steps (Nat.le_refl _))⟩
  | succ gap ih =>
    cases shown : (search.afterSteps steps).step.isInspection with
    | true =>
      refine ih (same.inspection shown) fun later enough => ended later ?_
      omega
    | false => exact ⟨steps + 1, same.told shown⟩

theorem isInspection_of_ended (ended : search.step.isProgress = false) :
    search.step.isInspection = false := by
  rw [Turn.isProgress_eq, Option.isSome_eq_false_iff, Option.isNone_iff_eq_none] at ended
  rw [Turn.isInspection, ended]
  rfl

theorem isProgress_of_ended {last later : Nat}
    (ended : (search.afterSteps last).step.isProgress = false) (enough : last ≤ later) :
    (search.afterSteps later).step.isProgress = false := by
  induction later, enough using Nat.le_induction with
  | base => exact ended
  | succ later _ ih =>
    have finished : (search.afterSteps (later + 1)).finished = true := finished_of_ended ih
    rw [step_of_finished finished]
    rfl

variable {τ π : Type} [Key π]

/-- With inspections left out, a search tells all that it tells when nothing is shown. -/
theorem exists_matched {constraints : Constraints κ τ σ π} (starts : constraints.Starts search)
    (fewer : Nat) : ∃ steps, search.Matches steps fewer := by
  obtain ⟨last, -, -, ended⟩ := exists_last_step starts
  induction fewer with
  | zero => exact ⟨0, rfl, rfl⟩
  | succ fewer ih =>
    obtain ⟨steps, same⟩ := ih
    refine same.exists_succ last fun later enough => isInspection_of_ended ?_
    exact isProgress_of_ended ended (by omega)

end Search

namespace Problem

variable {τ π : Type} [Key π] {problem : Problem κ τ σ π}

theorem exists_starts {search : Search κ σ} (started : problem.start.outcome = .ok search) :
    ∃ constraints : Constraints κ τ σ π, constraints.Starts search := by
  obtain ⟨catalog, board, adjacency, pairing, boundarySocket, weighting, draws, showing⟩ := problem
  cases board with
  | none => cases started
  | some board =>
    cases adjacency with
    | none => cases started
    | some adjacency =>
      cases pairing with
      | none => cases started
      | some pairing =>
        cases boundarySocket with
        | none => cases started
        | some boundarySocket =>
          exact ⟨⟨catalog, board, adjacency, pairing, boundarySocket⟩, weighting, draws, showing,
            started⟩

theorem begin_hidden (problem : Problem κ τ σ π) (board : Board κ σ)
    (adjacency : κ → List (σ × Neighbour κ)) (pairing : σ → σ) (boundarySocket : π) :
    (({ problem with showing := false } : Problem κ τ σ π).begin board adjacency pairing
      boundarySocket).outcome =
      (({ problem with showing := true } : Problem κ τ σ π).begin board adjacency pairing
        boundarySocket).outcome.map Search.hidden := by
  unfold begin
  cases trimmedCells problem.catalog boundarySocket adjacency board.cells.entries with
  | error reason => rfl
  | ok changed =>
    dsimp only
    split <;> rfl

/-- Whether the work is shown makes no difference to how a search starts. -/
theorem start_hidden (problem : Problem κ τ σ π) :
    ({ problem with showing := false } : Problem κ τ σ π).start.outcome =
      ({ problem with showing := true } : Problem κ τ σ π).start.outcome.map Search.hidden := by
  unfold start
  dsimp only
  split
  · rfl
  · rfl
  · rfl
  · rfl
  · split
    · rfl
    · exact begin_hidden problem _ _ _ _

/-- A search that shows its work only observes: with its inspections left out it is, turn by turn
and state by state, the search that shows nothing, and no inspection changes more than what is
left to show. -/
theorem showing_only_observes (problem : Problem κ τ σ π) :
    ({ problem with showing := false } : Problem κ τ σ π).start.outcome =
      ({ problem with showing := true } : Problem κ τ σ π).start.outcome.map Search.hidden ∧
    ∀ shown plain, ({ problem with showing := true } : Problem κ τ σ π).start.outcome = .ok shown →
      ({ problem with showing := false } : Problem κ τ σ π).start.outcome = .ok plain →
      (∀ steps, ∃ fewer, shown.plainTurns steps = plain.turns fewer ∧
        ((shown.afterSteps steps).step.isInspection = false →
          (shown.afterSteps (steps + 1)).hidden = plain.afterSteps (fewer + 1))) ∧
      (∀ fewer, ∃ steps, shown.plainTurns steps = plain.turns fewer) ∧
      ∀ steps, (shown.afterSteps steps).step.isInspection = true →
        (shown.afterSteps steps).Keeps (shown.afterSteps (steps + 1)) := by
  refine ⟨problem.start_hidden, ?_⟩
  intro shown plain started started'
  obtain ⟨constraints, starts⟩ := exists_starts started
  have same : plain = shown.hidden := by
    rw [start_hidden, started] at started'
    exact (Except.ok.inj started').symm
  subst same
  refine ⟨?_, ?_, ?_⟩
  · intro steps
    obtain ⟨fewer, same⟩ := shown.exists_matches steps
    exact ⟨fewer, same.turns, same.after⟩
  · intro fewer
    obtain ⟨steps, same⟩ := Search.exists_matched starts fewer
    exact ⟨steps, same.turns⟩
  · intro steps inspection
    exact (Search.of_isInspection inspection).2.2.2

/-- Two inspections come between the collapse of one cell and the narrowing of the other, which is
the second step when nothing is shown. -/
theorem showing_only_observes_twoSided :
    ∃ shown plain : Search Nat Nat,
      (Constraints.twoSided.problem none (fun _ => 0) true).start.outcome = .ok shown ∧
      (Constraints.twoSided.problem none (fun _ => 0) false).start.outcome = .ok plain ∧
      shown.events 4 =
        [.collapsed 0 0, .inspected 0 .source, .inspected 1 .checked, .updated 0 1] ∧
      (shown.afterSteps 1).Keeps (shown.afterSteps 2) ∧
      (shown.afterSteps 2).Keeps (shown.afterSteps 3) ∧
      (shown.afterSteps 4).hidden = plain.afterSteps 2 := by
  have computed : ((Constraints.twoSided.problem none (fun _ => 0) true).start.outcome.toOption.any
      fun first => (first.turnWithin 8 0).any (·.event? = some (.collapsed 0 0)) &&
        ((first.turnWithin 8 1).any (·.event? = some (.inspected 0 .source)) &&
          ((first.turnWithin 8 2).any (·.event? = some (.inspected 1 .checked)) &&
            (first.turnWithin 8 3).any (·.event? = some (.updated 0 1))))) = true := by
    decide +kernel
  obtain ⟨hidden, only⟩ :=
    showing_only_observes (Constraints.twoSided.problem none (fun _ => 0) true)
  cases started : (Constraints.twoSided.problem none (fun _ => 0) true).start.outcome with
  | error failure =>
    rw [started] at computed
    cases computed
  | ok shown =>
    rw [started] at computed
    have plain := hidden.trans (congrArg (Except.map Search.hidden) started)
    obtain ⟨told, -, kept⟩ := only shown shown.hidden started plain
    obtain ⟨zeroth, computed⟩ := Bool.and_eq_true_iff.mp computed
    obtain ⟨once, computed⟩ := Bool.and_eq_true_iff.mp computed
    obtain ⟨twice, thrice⟩ := Bool.and_eq_true_iff.mp computed
    have zeroth := of_decide_eq_true (Search.of_turnWithin zeroth)
    have once := of_decide_eq_true (Search.of_turnWithin once)
    have twice := of_decide_eq_true (Search.of_turnWithin twice)
    have thrice := of_decide_eq_true (Search.of_turnWithin thrice)
    have inspected : ∀ {turn : Turn Nat Nat} {event : Event Nat}, turn.event? = some event →
        turn.isInspection = event.isInspection := by
      intro turn event reported
      rw [Turn.isInspection, reported, Option.any_some]
    obtain ⟨fewer, turns, after⟩ := told 3
    have counted : fewer = 1 := by
      have lengths := congrArg List.length turns
      simpa [Search.plainTurns_succ, inspected zeroth, inspected once, inspected twice,
        Event.isInspection, Search.plainTurns, Search.turns, Search.length_turns] using lengths.symm
    rw [counted] at after
    refine ⟨shown, shown.hidden, rfl, plain, ?_, kept 1 (inspected once), kept 2 (inspected twice),
      after (inspected thrice)⟩
    simp only [Search.events_succ, zeroth, once, twice, thrice]
    rfl

end Problem

end Tiling
