import Tiling.Proofs.Solution
import Tiling.Proofs.Search.Run

/-!
What a run has reported. The turns of the first steps are listed in order, and the events among
them are what a search counts.
-/

namespace Tiling

variable {κ σ : Type} [Key κ] [Key σ]

namespace Event

def isCollapse : Event κ → Bool
  | collapsed _ _ => true
  | _ => false

def isUpdate : Event κ → Bool
  | updated _ _ => true
  | _ => false

def isRollback : Event κ → Bool
  | rolledBack _ => true
  | _ => false

def isInspection : Event κ → Bool
  | inspected _ _ => true
  | _ => false

end Event

/-- How many changes of each kind are among some events. -/
def Tally.ofEvents (events : List (Event κ)) : Tally where
  collapses := events.countP Event.isCollapse
  updates := events.countP Event.isUpdate
  rollbacks := events.countP Event.isRollback

theorem Turn.isProgress_eq (turn : Turn κ σ) : turn.isProgress = turn.event?.isSome := by
  obtain ⟨after, _ | _ | _, notices⟩ := turn <;> rfl

theorem Turn.isProgress_of_event?_eq_none {turn : Turn κ σ} (silent : turn.event? = none) :
    turn.isProgress = false := by
  rw [isProgress_eq, silent]
  rfl

namespace Search

/-- The turns of so many steps, in order. -/
def turns (first : Search κ σ) : Nat → List (Turn κ σ)
  | 0 => []
  | steps + 1 => first.turns steps ++ [(first.afterSteps steps).step]

theorem length_turns (search : Search κ σ) (steps : Nat) : (search.turns steps).length = steps := by
  induction steps with
  | zero => rfl
  | succ steps ih => rw [turns, List.length_append, ih, List.length_singleton]

theorem turns_succ (search : Search κ σ) (steps : Nat) :
    search.turns (steps + 1) = search.step :: search.step.after.turns steps := by
  induction steps with
  | zero => rfl
  | succ steps ih =>
    rw [turns, ih, afterSteps_succ]
    rfl

/-- The events of so many steps, in order. -/
def events (first : Search κ σ) (steps : Nat) : List (Event κ) :=
  (first.turns steps).filterMap Turn.event?

theorem events_succ (first : Search κ σ) (steps : Nat) :
    first.events (steps + 1) =
      first.events steps ++ (first.afterSteps steps).step.event?.toList := by
  rw [events, turns, List.filterMap_append, ← events]
  cases reported : (first.afterSteps steps).step.event? <;> simp [reported]

theorem step_of_unfinished {search : Search κ σ} (unfinished : search.finished = false) :
    search.step = search.advance.turn := by
  simp [step, unfinished]

theorem step_of_finished {search : Search κ σ} (finished : search.finished = true) :
    search.step = ⟨search, .error (.error .finished), []⟩ := if_pos finished

theorem step_of_move {search : Search κ σ} {made : Report κ σ}
    (unfinished : search.finished = false) (moved : search.move = .report made) :
    search.step = made.turn := by
  rw [step_of_unfinished unfinished, advance_of_report moved]

theorem Tends.isInspection {search after : Search κ σ} {event : Event κ}
    (tends : search.Tends (some event) after) : event.isInspection = true := by
  cases tends <;> rfl

theorem moves_of_event? {search : Search κ σ} {event : Event κ}
    (reported : search.step.event? = some event) : search.finished = false ∧
      ∃ last, search.Quiets last ∧ last.Moves (some event) search.step.after := by
  have taken := search.steps_step
  generalize search.step = turn at taken reported
  cases taken with
  | progress notices unfinished quiets moved =>
    cases reported
    exact ⟨unfinished, _, quiets, moved⟩
  | done | failed | refused => cases reported

/-- A step that reports no event changes nothing but what was left to do. -/
theorem keeps_of_event?_eq_none {search : Search κ σ} (silent : search.step.event? = none) :
    search.Keeps search.step.after := by
  have taken := search.steps_step
  generalize search.step = turn at taken silent
  cases taken with
  | progress => cases silent
  | done notices unfinished quiets => exact quiets.keeps.trans ⟨rfl, rfl, rfl, rfl, rfl⟩
  | failed notices unfinished quiets kept =>
    exact (quiets.keeps.trans kept).trans ⟨rfl, rfl, rfl, rfl, rfl⟩
  | refused => exact .refl search

/-- A search counts what it reports. -/
theorem tally_afterSteps {first : Search κ σ} (uncounted : first.tally = {}) (steps : Nat) :
    (first.afterSteps steps).tally = .ofEvents (first.events steps) := by
  induction steps with
  | zero => exact uncounted
  | succ steps ih =>
    rw [events_succ, afterSteps]
    cases reported : (first.afterSteps steps).step.event? with
    | none =>
      rw [(keeps_of_event?_eq_none reported).tally, ih]
      simp
    | some event =>
      obtain ⟨-, last, quiets, moved⟩ := moves_of_event? reported
      have counted : last.tally = .ofEvents (first.events steps) := quiets.keeps.tally.trans ih
      generalize (first.afterSteps steps).step.after = after at moved
      cases moved with
      | tended tends =>
        have inspection := tends.isInspection
        rw [tends.keeps.tally, counted]
        cases event <;> simp [Tally.ofEvents, Event.isInspection, Event.isCollapse,
          Event.isUpdate, Event.isRollback] at inspection ⊢
      | narrowed | settled | undone =>
        simp [Tally.ofEvents, Event.isCollapse, Event.isUpdate, Event.isRollback, narrowedTo,
          settledOn, Search.undone, withChecks, clearMarks, mark, counted]

end Search

theorem Constraints.exists_starts_oneSided :
    ∃ first, Constraints.oneSided.Starts first ∧
      (first.afterSteps 0).step.event? = some (.collapsed 0 0) ∧
      (first.afterSteps 1).step.event? = some (.collapsed 1 0) ∧
      (first.afterSteps 2).step.event? = some (.rolledBack 1) ∧
      (first.afterSteps 3).step.event? = some (.collapsed 1 1) := by
  have computed : ((Constraints.oneSided.problem none (fun _ => 0) false).start.outcome.toOption.any
      fun first => (first.turnWithin 8 0).any (·.event? = some (.collapsed 0 0)) &&
        ((first.turnWithin 8 1).any (·.event? = some (.collapsed 1 0)) &&
          ((first.turnWithin 8 2).any (·.event? = some (.rolledBack 1)) &&
            (first.turnWithin 8 3).any (·.event? = some (.collapsed 1 1))))) = true := by
    decide +kernel
  obtain ⟨first, starts, computed⟩ := Constraints.exists_starts computed
  obtain ⟨zeroth, computed⟩ := Bool.and_eq_true_iff.mp computed
  obtain ⟨once, computed⟩ := Bool.and_eq_true_iff.mp computed
  obtain ⟨twice, thrice⟩ := Bool.and_eq_true_iff.mp computed
  exact ⟨first, starts, of_decide_eq_true (Search.of_turnWithin zeroth),
    of_decide_eq_true (Search.of_turnWithin once), of_decide_eq_true (Search.of_turnWithin twice),
    of_decide_eq_true (Search.of_turnWithin thrice)⟩

end Tiling
