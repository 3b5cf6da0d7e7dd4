import Tiling.Proofs.Search.Move

/-!
Runs of a search. A step makes quiet moves up to one that is reported, within the work left, and
every state that steps lead to is one that moves lead to, but for what a failure drops.
-/

namespace Tiling

variable {κ σ : Type} [Key κ] [Key σ]

/-- The turn makes progress and reports an event. -/
def Turn.Reports (turn : Turn κ σ) (event : Event κ) : Prop :=
  ∃ snapshot, turn.outcome = .ok (.progress snapshot) ∧ snapshot.event = event

/-- The event of a turn that makes progress. -/
def Turn.event? (turn : Turn κ σ) : Option (Event κ) :=
  match turn.outcome with
  | .ok (.progress snapshot) => some snapshot.event
  | _ => none

theorem Turn.reports_iff {turn : Turn κ σ} {event : Event κ} :
    turn.Reports event ↔ turn.event? = some event := by
  unfold Reports event?
  constructor
  · rintro ⟨snapshot, outcome, rfl⟩
    rw [outcome]
  · intro same
    split at same
    · rename_i snapshot outcome
      exact ⟨snapshot, outcome, Option.some.inj same⟩
    · cases same

/-- Whether the turn ends the search successfully. -/
def Turn.isDone (turn : Turn κ σ) : Bool :=
  match turn.outcome with
  | .ok (.done _) => true
  | _ => false

theorem Turn.exists_of_isDone {turn : Turn κ σ} (ended : turn.isDone = true) :
    ∃ snapshot, turn.outcome = .ok (.done snapshot) := by
  unfold isDone at ended
  split at ended
  · rename_i snapshot outcome
    exact ⟨snapshot, outcome⟩
  · cases ended

/-- Whether the turn ends the search for want of a solution. -/
def Turn.isUnsatisfiable (turn : Turn κ σ) : Bool :=
  match turn.outcome with
  | .error (.error .unsatisfiable) => true
  | _ => false

theorem Turn.outcome_of_isUnsatisfiable {turn : Turn κ σ} (ended : turn.isUnsatisfiable = true) :
    turn.outcome = .error (.error .unsatisfiable) := by
  unfold isUnsatisfiable at ended
  split at ended
  · assumption
  · cases ended

theorem Turn.reports_of_isProgress {turn : Turn κ σ} (going : turn.isProgress = true) :
    ∃ event, turn.Reports event := by
  unfold Turn.isProgress at going
  split at going
  · rename_i snapshot outcome
    exact ⟨snapshot.event, snapshot, outcome, rfl⟩
  · cases going

namespace Search

theorem Keeps.refl (search : Search κ σ) : search.Keeps search := ⟨rfl, rfl, rfl, rfl, rfl⟩

theorem Keeps.trans {first second third : Search κ σ} (earlier : first.Keeps second)
    (later : second.Keeps third) : first.Keeps third :=
  ⟨later.rules.trans earlier.rules, later.position.trans earlier.position,
    later.trail.trans earlier.trail, later.tally.trans earlier.tally,
    later.drawn.trans earlier.drawn⟩

theorem Tends.keeps {search after : Search κ σ} {event : Option (Event κ)}
    (tends : search.Tends event after) : search.Keeps after := by
  cases tends <;> exact ⟨rfl, rfl, rfl, rfl, rfl⟩

theorem Tends.retry {search after : Search κ σ} {event : Option (Event κ)}
    (tends : search.Tends event after) : after.retry = search.retry := by
  cases tends <;> rfl

theorem Moves.rules {search after : Search κ σ} {event : Option (Event κ)}
    (moved : search.Moves event after) : after.rules = search.rules := by
  cases moved with
  | tended tends => exact tends.keeps.rules
  | narrowed | settled | undone => rfl

theorem Moves.finished {search after : Search κ σ} {event : Option (Event κ)}
    (moved : search.Moves event after) : after.finished = search.finished := by
  cases moved with
  | tended tends => cases tends <;> rfl
  | narrowed | settled | undone => rfl

/-- Quiet moves, one after the other. -/
inductive Quiets : Search κ σ → Search κ σ → Prop where
  | none (search : Search κ σ) : search.Quiets search
  | move {search next last : Search κ σ} (tends : search.Tends none next)
      (rest : next.Quiets last) : search.Quiets last

theorem Quiets.keeps {search last : Search κ σ} (quiets : search.Quiets last) :
    search.Keeps last := by
  induction quiets with
  | none search => exact .refl search
  | move tends _ ih => exact tends.keeps.trans ih

theorem Quiets.retry {search last : Search κ σ} (quiets : search.Quiets last) :
    last.retry = search.retry := by
  induction quiets with
  | none => rfl
  | move tends _ ih => exact ih.trans tends.retry

/-- What so many moves lead up to, if they end in a report. -/
def advanceWithin : Nat → Search κ σ → Option (Report κ σ)
  | 0, _ => none
  | moves + 1, search =>
    match search.move with
    | .quiet after => advanceWithin moves after
    | .report made => some made

theorem advance_of_quiet {search after : Search κ σ} (quiet : search.move = .quiet after) :
    search.advance = after.advance := by
  rw [advance]
  split
  · rename_i next quiet'
    rw [quiet] at quiet'
    cases quiet'
    rfl
  · rename_i made reported
    rw [quiet] at reported
    cases reported

theorem advance_of_report {search : Search κ σ} {made : Report κ σ}
    (reported : search.move = .report made) : search.advance = made := by
  rw [advance]
  split
  · rename_i next quiet
    rw [reported] at quiet
    cases quiet
  · rename_i made' reported'
    rw [reported] at reported'
    cases reported'
    rfl

/-- The moves of a step are no more than the work left, and the last one is its report. -/
theorem advanceWithin_eq_advance {search : Search κ σ} {moves : Nat}
    (enough : search.work < moves) :
    search.advanceWithin moves = some search.advance := by
  induction moves generalizing search with
  | zero => omega
  | succ moves ih =>
    unfold advanceWithin
    cases made : search.move with
    | quiet after =>
      have less := work_lt_of_quiet made
      rw [advance_of_quiet made]
      exact ih (by omega)
    | report made => rw [advance_of_report made]

theorem quiets_of_advanceWithin {search : Search κ σ} {moves : Nat} {made : Report κ σ}
    (found : search.advanceWithin moves = some made) :
    ∃ last, search.Quiets last ∧ last.move = .report made := by
  induction moves generalizing search with
  | zero => cases found
  | succ moves ih =>
    unfold advanceWithin at found
    have answer := search.answers_move
    cases answered : search.move with
    | quiet after =>
      rw [answered] at found answer
      obtain ⟨last, rest, reported⟩ := ih found
      cases answer with
      | quiet moved =>
        cases moved with
        | tended tends => exact ⟨last, .move tends rest, reported⟩
    | report made =>
      rw [answered] at found
      cases found
      exact ⟨search, .none search, answered⟩

/-- An advance makes quiet moves up to the one that it reports. -/
theorem quiets_advance (search : Search κ σ) :
    ∃ last, search.Quiets last ∧ last.move = .report search.advance :=
  quiets_of_advanceWithin (advanceWithin_eq_advance (Nat.lt_succ_self search.work))

/-- What a step can be. -/
inductive Steps (search : Search κ σ) : Turn κ σ → Prop where
  | progress {last after : Search κ σ} {event : Event κ} (notices : List (Notice κ))
      (unfinished : search.finished = false) (quiets : search.Quiets last)
      (moved : last.Moves (some event) after) :
      search.Steps ⟨after, .ok (.progress (after.snapshot event)), notices⟩
  | done {last : Search κ σ} (notices : List (Notice κ)) (unfinished : search.finished = false)
      (quiets : search.Quiets last) (idle : last.Idle)
      (none : last.position.entropy.lowest? = none)
      (collapsed : last.position.board.uncollapsed = 0) :
      search.Steps ⟨{ last with finished := true }, .ok (.done (last.snapshot .finished)), notices⟩
  | failed {last after : Search κ σ} {failure : Failure (SearchError κ σ)}
      (notices : List (Notice κ)) (unfinished : search.finished = false)
      (quiets : search.Quiets last) (kept : last.Keeps after)
      (refuted : failure = .error .unsatisfiable →
        (∃ marks, last.Stuck marks) ∧ last.trail.decisions = []) :
      search.Steps ⟨{ after with finished := true }, .error failure, notices⟩
  | refused (finished : search.finished = true) :
      search.Steps ⟨search, .error (.error .finished), []⟩

theorem steps_step (search : Search κ σ) : search.Steps search.step := by
  unfold step
  split
  · rename_i finished
    exact .refused finished
  · rename_i unfinished
    have unfinished : search.finished = false := by simpa using unfinished
    obtain ⟨last, quiets, reported⟩ := search.quiets_advance
    have answer := last.answers_move
    rw [reported] at answer
    generalize search.advance = made at answer
    cases answer with
    | progress notices moved => exact .progress notices unfinished quiets moved
    | done notices idle none collapsed =>
      exact .done notices unfinished quiets idle none collapsed
    | failed notices kept refuted => exact .failed notices unfinished quiets kept refuted

/-- The search after so many steps. -/
def afterSteps (search : Search κ σ) : Nat → Search κ σ
  | 0 => search
  | steps + 1 => (search.afterSteps steps).step.after

theorem afterSteps_add (search : Search κ σ) (first later : Nat) :
    search.afterSteps (first + later) = (search.afterSteps first).afterSteps later := by
  induction later with
  | zero => rfl
  | succ later ih => exact congrArg (·.step.after) ih

theorem afterSteps_succ (search : Search κ σ) (steps : Nat) :
    search.afterSteps (steps + 1) = search.step.after.afterSteps steps := by
  rw [Nat.add_comm, afterSteps_add]
  rfl

/-- The states that moves lead to. -/
inductive Reaches (first : Search κ σ) : Search κ σ → Prop where
  | start : first.Reaches first
  | move {search after : Search κ σ} {event : Option (Event κ)} (earlier : first.Reaches search)
      (moved : search.Moves event after) : first.Reaches after

theorem Reaches.quiets {first search last : Search κ σ} (earlier : first.Reaches search)
    (quiets : search.Quiets last) : first.Reaches last := by
  induction quiets with
  | none search => exact earlier
  | move tends _ ih => exact ih (earlier.move (.tended tends))

theorem Reaches.rules {first search : Search κ σ} (reaches : first.Reaches search) :
    search.rules = first.rules := by
  induction reaches with
  | start => rfl
  | move _ moved ih => exact moved.rules.trans ih

theorem Reaches.finished {first search : Search κ σ} (reaches : first.Reaches search) :
    search.finished = first.finished := by
  induction reaches with
  | start => rfl
  | move _ moved ih => exact moved.finished.trans ih

/-- Steps lead where moves lead. Once a search is finished, the state may lack what was left to do,
but nothing else. -/
theorem reaches_afterSteps (first : Search κ σ) (steps : Nat) :
    ∃ last, first.Reaches last ∧ last.Keeps (first.afterSteps steps) ∧
      ((first.afterSteps steps).finished = false → first.afterSteps steps = last) := by
  induction steps with
  | zero => exact ⟨first, .start, .refl first, fun _ => rfl⟩
  | succ steps ih =>
    obtain ⟨last, reaches, kept, same⟩ := ih
    have taken := (first.afterSteps steps).steps_step
    unfold afterSteps
    generalize (first.afterSteps steps).step = turn at taken
    cases taken with
    | progress notices going quiets moved =>
      rw [same going] at quiets
      have reached := (reaches.quiets quiets).move moved
      exact ⟨_, reached, .refl _, fun _ => rfl⟩
    | done notices going quiets idle none collapsed =>
      rw [same going] at quiets
      exact ⟨_, reaches.quiets quiets, ⟨rfl, rfl, rfl, rfl, rfl⟩, fun going => by cases going⟩
    | failed notices going quiets dropped refuted =>
      rw [same going] at quiets
      exact ⟨_, reaches.quiets quiets, dropped.trans ⟨rfl, rfl, rfl, rfl, rfl⟩,
        fun going => by cases going⟩
    | refused finished => exact ⟨last, reaches, kept, same⟩

/-- The turn of a step, if it takes no more moves than given. -/
def stepWithin (moves : Nat) (search : Search κ σ) : Option (Turn κ σ) :=
  if search.finished then none else (search.advanceWithin moves).map Report.turn

/-- The turn of the step after so many others, if none of them takes more moves than given. -/
def turnWithin (moves : Nat) : Nat → Search κ σ → Option (Turn κ σ)
  | 0, search => search.stepWithin moves
  | steps + 1, search => (search.stepWithin moves).bind fun turn =>
      turn.after.turnWithin moves steps

theorem advance_of_advanceWithin {search : Search κ σ} {moves : Nat} {made : Report κ σ}
    (found : search.advanceWithin moves = some made) : search.advance = made := by
  induction moves generalizing search with
  | zero => cases found
  | succ moves ih =>
    unfold advanceWithin at found
    cases answered : search.move with
    | quiet after =>
      rw [answered] at found
      rw [advance_of_quiet answered]
      exact ih found
    | report _ =>
      rw [answered] at found
      cases found
      exact advance_of_report answered

theorem step_of_stepWithin {search : Search κ σ} {moves : Nat} {turn : Turn κ σ}
    (found : search.stepWithin moves = some turn) : search.step = turn := by
  unfold stepWithin at found
  unfold step
  split at found
  · cases found
  · rename_i unfinished
    obtain ⟨made, within, rfl⟩ := Option.map_eq_some_iff.mp found
    rw [if_neg unfinished, advance_of_advanceWithin within]

/-- What can be computed within so many moves is what the steps do. -/
theorem step_of_turnWithin {search : Search κ σ} {moves steps : Nat} {turn : Turn κ σ}
    (found : search.turnWithin moves steps = some turn) :
    (search.afterSteps steps).step = turn := by
  induction steps generalizing search with
  | zero => exact step_of_stepWithin found
  | succ steps ih =>
    obtain ⟨first, within, later⟩ := Option.bind_eq_some_iff.mp found
    rw [Nat.add_comm, afterSteps_add]
    have single : search.afterSteps 1 = first.after :=
      congrArg Turn.after (step_of_stepWithin within)
    rw [single]
    exact ih later

theorem of_turnWithin {search : Search κ σ} {moves steps : Nat} {holds : Turn κ σ → Bool}
    (found : (search.turnWithin moves steps).any holds = true) :
    holds (search.afterSteps steps).step = true := by
  obtain ⟨turn, within, held⟩ := (Option.any_eq_true _ _).mp found
  rw [step_of_turnWithin within]
  exact held

theorem reaches_of_unfinished {first : Search κ σ} {steps : Nat}
    (unfinished : (first.afterSteps steps).finished = false) :
    first.Reaches (first.afterSteps steps) := by
  obtain ⟨last, reaches, -, same⟩ := reaches_afterSteps first steps
  rw [same unfinished]
  exact reaches

theorem reaches_of_reports {first : Search κ σ} {steps : Nat} {event : Event κ}
    (reported : (first.afterSteps steps).step.Reports event) :
    first.Reaches (first.afterSteps steps) ∧ ∃ last, (first.afterSteps steps).Quiets last ∧
      last.Moves (some event) (first.afterSteps (steps + 1)) := by
  obtain ⟨snapshot, outcome, kind⟩ := reported
  have taken := (first.afterSteps steps).steps_step
  rw [afterSteps]
  generalize (first.afterSteps steps).step = turn at taken outcome
  cases taken with
  | done | failed | refused => cases outcome
  | @progress last after _ notices unfinished quiets moved =>
    cases outcome
    cases kind
    exact ⟨reaches_of_unfinished unfinished, last, quiets, moved⟩

/-- A step that ends a search successfully finds nothing left to narrow or to settle. -/
theorem reaches_of_done {first : Search κ σ} {steps : Nat} {snapshot : Snapshot κ σ}
    (done : (first.afterSteps steps).step.outcome = .ok (.done snapshot)) :
    first.Reaches (first.afterSteps steps) ∧ ∃ last, (first.afterSteps steps).Quiets last ∧
      last.Idle ∧ last.position.board.uncollapsed = 0 ∧ snapshot.position = last.position := by
  have taken := (first.afterSteps steps).steps_step
  generalize (first.afterSteps steps).step = turn at taken done
  cases taken with
  | progress | failed | refused => cases done
  | @done last notices unfinished quiets idle none collapsed =>
    cases done
    exact ⟨reaches_of_unfinished unfinished, last, quiets, idle, collapsed, rfl⟩

theorem reaches_of_unsatisfiable {first : Search κ σ} {steps : Nat}
    (failed : (first.afterSteps steps).step.outcome = .error (.error .unsatisfiable)) :
    first.Reaches (first.afterSteps steps) ∧ ∃ last marks, (first.afterSteps steps).Quiets last ∧
      last.Stuck marks ∧ last.trail.decisions = [] := by
  have taken := (first.afterSteps steps).steps_step
  generalize (first.afterSteps steps).step = turn at taken failed
  cases taken with
  | progress | done | refused => cases failed
  | @failed last after failure notices unfinished quiets kept refuted =>
    cases failed
    obtain ⟨⟨marks, stuck⟩, undecided⟩ := refuted rfl
    exact ⟨reaches_of_unfinished unfinished, last, marks, quiets, stuck, undecided⟩

end Search

end Tiling
