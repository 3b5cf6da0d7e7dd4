import Tiling.Proofs.Search.Rank
import Tiling.Proofs.Search.Turns

/-!
Narrowing to the end. A search narrows neighbours until nothing is left to narrow, the decisions
that stand are refuted or a move fails. Every move of such a phase lowers a measure, and the steps
of the search go through the phase move by move.
-/

namespace Tiling

variable {κ σ : Type} [Key κ] [Key σ]

/-- Whether the event is part of narrowing. -/
def Event.isNarrowing (event : Event κ) : Bool := event.isUpdate || event.isInspection

/-- What narrowing to the end comes to. -/
inductive Propagation (κ σ : Type) [Key κ] [Key σ] where
  /-- Nothing is left to narrow. -/
  | drained (last : Search κ σ)
  /-- A neighbour has no supported candidate. -/
  | contradiction
  | failed (failure : Failure (SearchError κ σ))

/-- Whether the reported move is part of narrowing. -/
def Report.narrows (made : Report κ σ) : Bool :=
  match made.verdict with
  | .progress event => event.isNarrowing
  | _ => false

/-- What a reported move brings narrowing to, if it ends it. -/
def Report.ending (made : Report κ σ) : Propagation κ σ :=
  match made.verdict with
  | .progress _ => .contradiction
  | .done => .drained made.after
  | .failed (.error .unsatisfiable) => .contradiction
  | .failed failure => .failed failure

namespace Search

variable {search after last : Search κ σ} {event : Option (Event κ)}

instance (search : Search κ σ) : Decidable search.Idle :=
  decidable_of_iff (search.visit.isNone = true ∧ search.pending = [])
    ⟨fun ⟨unvisited, drained⟩ => ⟨Option.isNone_iff_eq_none.mp unvisited, drained⟩,
      fun idle => ⟨Option.isNone_iff_eq_none.mpr idle.unvisited, idle.drained⟩⟩

/-- A bound on the moves that tend what is queued and in hand. -/
def effort (search : Search κ σ) : Nat :=
  (match search.visit with
    | none => 0
    | some visit => visit.moves + 1) +
    (search.pending.map fun id => 2 * (search.rules.adjacency id).length + 3).sum

theorem Tends.effort (tends : search.Tends event after) : after.effort < search.effort := by
  cases tends with
  | @opened id pending cell checks unvisited queued found listed =>
    have few := Check.length_ofAdjacency_le listed
    have bound : ({ source := id, checks } : Visit κ).moves ≤ 2 * checks.length + 1 :=
      Visit.moves_le _
    simp only [Search.effort, unvisited, queued, List.map_cons, List.sum_cons]
    omega
  | announced visiting fresh =>
    simp [Search.effort, visiting, Visit.moves, fresh]
  | shown visiting fresh =>
    simp [Search.effort, visiting, Visit.moves, fresh, mark]
  | closed visiting announced empty =>
    simp [Search.effort, visiting, mark]
  | @previewed visit check checks target taken undecided showing fresh =>
    simp [Search.effort, taken.visiting, taken.announced, taken.listed, mark, withChecks,
      Visit.moves, Check.moves, fresh]
  | @passed visit check checks target taken =>
    have counted := check.moves_pos
    simp [Search.effort, taken.visiting, taken.announced, taken.listed, withChecks, Visit.moves,
      counted]
  | @unchanged visit check checks target taken =>
    have counted := check.moves_pos
    simp [Search.effort, taken.visiting, taken.announced, taken.listed, mark, withChecks,
      Visit.moves, counted]

/-- Narrowing uses up candidates, and all other tending uses up what is queued and in hand. -/
theorem Moves.lowers (moved : search.Moves event after)
    (narrows : event.all Event.isNarrowing = true) :
    Prod.Lex (· < ·) (· < ·) (after.position.board.volume, after.effort)
      (search.position.board.volume, search.effort) := by
  cases moved with
  | tended tends =>
    rw [tends.keeps.position]
    exact .right _ tends.effort
  | narrowed taken undecided inspected cut left restricted =>
    exact .left _ _ (Board.volume_put_lt taken.found cut restricted)
  | settled | undone => cases narrows

theorem moves_of_quiet (quiet : search.move = .quiet after) : search.Moves none after := by
  have answer := search.answers_move
  rw [quiet] at answer
  cases answer with
  | quiet moved => exact moved

theorem moves_of_narrows {made : Report κ σ} (reported : search.move = .report made)
    (narrows : made.narrows = true) :
    ∃ event, event.isNarrowing = true ∧ made.verdict = .progress event ∧
      search.Moves (some event) made.after := by
  have answer := search.answers_move
  rw [reported] at answer
  cases answer with
  | progress _ moved => exact ⟨_, narrows, rfl, moved⟩
  | done | failed => cases narrows

/-- Narrows until nothing is left to narrow, the decisions that stand are refuted or a move
fails. -/
def propagate (search : Search κ σ) : Propagation κ σ :=
  if search.Idle then .drained search
  else if search.finished then .failed (.error .finished)
  else
    match _moved : search.move with
    | .quiet after => after.propagate
    | .report made => if _narrows : made.narrows = true then made.after.propagate else made.ending
termination_by (search.position.board.volume, search.effort)
decreasing_by
  · exact (moves_of_quiet _moved).lowers rfl
  · obtain ⟨event, narrowing, -, moved⟩ := moves_of_narrows _moved _narrows
    exact moved.lowers narrowing

theorem propagate_of_idle (idle : search.Idle) : search.propagate = .drained search := by
  rw [propagate, if_pos idle]

theorem propagate_of_finished (busy : ¬search.Idle) (finished : search.finished = true) :
    search.propagate = .failed (.error .finished) := by
  rw [propagate, if_neg busy, if_pos finished]

theorem propagate_of_quiet (busy : ¬search.Idle) (going : search.finished = false)
    (moved : search.move = .quiet after) : search.propagate = after.propagate := by
  rw [propagate, if_neg busy, if_neg (Bool.eq_false_iff.mp going)]
  split
  · rename_i next moved'
    cases moved.symm.trans moved'
    rfl
  · rename_i made moved'
    cases moved.symm.trans moved'

theorem propagate_of_report {made : Report κ σ} (busy : ¬search.Idle)
    (going : search.finished = false) (moved : search.move = .report made) :
    search.propagate = if made.narrows then made.after.propagate else made.ending := by
  rw [propagate, if_neg busy, if_neg (Bool.eq_false_iff.mp going)]
  split
  · rename_i next moved'
    cases moved.symm.trans moved'
  · rename_i made' moved'
    cases moved.symm.trans moved'
    rfl

/-- The states that one leads to while it narrows. -/
inductive Narrows : Search κ σ → Search κ σ → Prop where
  | none (search : Search κ σ) : search.Narrows search
  | quiet {search next last : Search κ σ} (moved : search.move = .quiet next)
      (rest : next.Narrows last) : search.Narrows last
  | reported {search last : Search κ σ} {made : Report κ σ} (moved : search.move = .report made)
      (narrows : made.narrows = true) (rest : made.after.Narrows last) : search.Narrows last

/-- What narrowing comes to, with the state in which it ends and why it ends there. -/
inductive Comes (search : Search κ σ) : Propagation κ σ → Prop where
  | drained {last : Search κ σ} (narrows : search.Narrows last) (idle : last.Idle) :
      search.Comes (.drained last)
  | contradiction {last : Search κ σ} {made : Report κ σ} {visit : Visit κ} {check : Check κ}
      {checks : List (Check κ)} {target : Cell κ σ} (narrows : search.Narrows last)
      (going : last.finished = false) (moved : last.move = .report made)
      (taken : last.Takes visit check checks target)
      (unsupported : ∀ tile ∈ target.candidates, tile ∉ check.allowed)
      (refutes : (∃ cell, made.turn.Reports (.rolledBack cell)) ∨
        made.turn.outcome = .error (.error .unsatisfiable)) : search.Comes .contradiction
  | failed {last : Search κ σ} {made : Report κ σ} {failure : Failure (SearchError κ σ)}
      (narrows : search.Narrows last) (going : last.finished = false)
      (moved : last.move = .report made) (fails : made.turn.outcome = .error failure) :
      search.Comes (.failed failure)
  | finished (finished : search.finished = true) : search.Comes (.failed (.error .finished))

theorem Comes.before {next : Search κ σ} {propagation : Propagation κ σ}
    (comes : next.Comes propagation) (going : next.finished = false)
    (earlier : ∀ {last}, next.Narrows last → search.Narrows last) : search.Comes propagation := by
  cases comes with
  | drained narrows idle => exact .drained (earlier narrows) idle
  | contradiction narrows going moved taken unsupported refutes =>
    exact .contradiction (earlier narrows) going moved taken unsupported refutes
  | failed narrows going moved fails => exact .failed (earlier narrows) going moved fails
  | finished finished => cases going.symm.trans finished

/-- A move that ends narrowing finds a neighbour without a supported candidate, or fails for
another reason. -/
theorem comes_ending {made : Report κ σ} (busy : ¬search.Idle) (going : search.finished = false)
    (moved : search.move = .report made) (ends : made.narrows = false) :
    search.Comes made.ending := by
  have answer := search.answers_move
  rw [moved] at answer
  cases answer with
  | progress notices changed =>
    cases changed with
    | tended tends =>
      have inspection := tends.isInspection
      simp [Report.narrows, Event.isNarrowing, inspection] at ends
    | narrowed => cases ends
    | settled selected => exact absurd selected.toIdle busy
    | undone stuck =>
      cases stuck with
      | conflict taken unsupported =>
        exact .contradiction (.none search) going moved taken unsupported (.inl ⟨_, _, rfl, rfl⟩)
      | spent selected => exact absurd selected.toIdle busy
  | done notices idle => exact absurd idle busy
  | @failed after failure notices kept refuted =>
    by_cases unsatisfiable : failure = .error .unsatisfiable
    · subst unsatisfiable
      obtain ⟨⟨marks, stuck⟩, -⟩ := refuted rfl
      cases stuck with
      | conflict taken unsupported =>
        exact .contradiction (.none search) going moved taken unsupported (.inr rfl)
      | spent selected => exact absurd selected.toIdle busy
    · have ending : Report.ending ⟨after, .failed failure, notices⟩ = .failed failure := by
        unfold Report.ending
        split <;> simp_all
      rw [ending]
      exact .failed (.none search) going moved rfl

theorem comes_propagate (search : Search κ σ) : search.Comes search.propagate := by
  induction search using propagate.induct with
  | case1 search idle =>
    rw [propagate_of_idle idle]
    exact .drained (.none search) idle
  | case2 search busy finished =>
    rw [propagate_of_finished busy finished]
    exact .finished finished
  | case3 search busy going after moved ih =>
    have going : search.finished = false := Bool.eq_false_iff.mpr going
    have onward := (moves_of_quiet moved).finished.trans going
    rw [propagate_of_quiet busy going moved]
    exact ih.before onward (.quiet moved)
  | case4 search busy going made moved narrows ih =>
    have going : search.finished = false := Bool.eq_false_iff.mpr going
    obtain ⟨event, -, -, changed⟩ := moves_of_narrows moved narrows
    have onward := changed.finished.trans going
    rw [propagate_of_report busy going moved, if_pos narrows]
    exact ih.before onward (.reported moved narrows)
  | case5 search busy going made moved ends =>
    have going : search.finished = false := Bool.eq_false_iff.mpr going
    rw [propagate_of_report busy going moved, if_neg ends]
    exact comes_ending busy going moved (Bool.eq_false_iff.mpr ends)

/-- What holds in a state and is kept by all moves that narrow holds until narrowing ends. -/
theorem Narrows.keeps {Holds : Search κ σ → Prop} (narrows : search.Narrows last)
    (kept : ∀ (search after : Search κ σ) (event : Option (Event κ)), Holds search →
      search.Moves event after → event.all Event.isNarrowing = true → Holds after)
    (start : Holds search) : Holds last := by
  induction narrows with
  | none => exact start
  | quiet moved _ ih => exact ih (kept _ _ _ start (moves_of_quiet moved) rfl)
  | reported moved narrows _ ih =>
    obtain ⟨event, narrowing, -, moved⟩ := moves_of_narrows moved narrows
    exact ih (kept _ _ _ start moved narrowing)

/-- What the steps of a search show when narrowing ends with this one. -/
def Ends (search : Search κ σ) : Propagation κ σ → Prop
  | .drained last => search.Quiets last ∧ last.Idle
  | .contradiction => (∃ cell, search.step.Reports (.rolledBack cell)) ∨
      search.step.outcome = .error (.error .unsatisfiable)
  | .failed failure => search.step.outcome = .error failure

theorem Narrows.steps (narrows : search.Narrows last) (going : search.finished = false) :
    ∃ more, (∀ earlier < more,
        (search.afterSteps earlier).step.event?.any Event.isNarrowing = true) ∧
      (search.afterSteps more).finished = false ∧ (search.afterSteps more).Quiets last ∧
        (search.afterSteps more).advance = last.advance := by
  induction narrows with
  | none search => exact ⟨0, nofun, going, .none search, rfl⟩
  | @quiet search next last moved _ ih =>
    have changed := moves_of_quiet moved
    have onward := changed.finished.trans going
    have same : search.step = next.step := by
      rw [step_of_unfinished going, step_of_unfinished onward, advance_of_quiet moved]
    obtain ⟨more, narrowing, unfinished, quiets, advances⟩ := ih onward
    cases more with
    | zero =>
      refine ⟨0, nofun, going, ?_, (advance_of_quiet moved).trans advances⟩
      cases changed with
      | tended tends => exact .move tends quiets
    | succ more =>
      have states : ∀ steps, search.afterSteps (steps + 1) = next.afterSteps (steps + 1) := by
        intro steps
        rw [afterSteps_succ, afterSteps_succ, same]
      refine ⟨more + 1, ?_, ?_⟩
      · intro earlier less
        cases earlier with
        | zero => exact same ▸ narrowing 0 less
        | succ earlier => exact states earlier ▸ narrowing (earlier + 1) less
      · rw [states]
        exact ⟨unfinished, quiets, advances⟩
  | @reported search last made moved narrows _ ih =>
    obtain ⟨event, kind, verdict, changed⟩ := moves_of_narrows moved narrows
    have stepped : search.step = made.turn := step_of_move going moved
    have turn : made.turn.event? = some event ∧ made.turn.after = made.after := by
      obtain ⟨after, _, notices⟩ := made
      cases verdict
      exact ⟨rfl, rfl⟩
    obtain ⟨more, narrowing, rest⟩ := ih (changed.finished.trans going)
    refine ⟨more + 1, ?_, ?_⟩
    · intro earlier less
      cases earlier with
      | zero =>
        change search.step.event?.any Event.isNarrowing = true
        rw [stepped, turn.1, Option.any_some, kind]
      | succ earlier =>
        rw [afterSteps_succ, stepped, turn.2]
        exact narrowing earlier (Nat.lt_of_succ_lt_succ less)
    · rw [afterSteps_succ, stepped, turn.2]
      exact rest

/-- The steps of a search narrow up to one that shows what this comes to. -/
def Shows (search : Search κ σ) (propagation : Propagation κ σ) : Prop :=
  ∃ more, (∀ earlier < more,
      (search.afterSteps earlier).step.event?.any Event.isNarrowing = true) ∧
    (search.afterSteps more).Ends propagation

theorem shows_propagate (search : Search κ σ) : search.Shows search.propagate := by
  cases finished : search.finished with
  | true =>
    refine ⟨0, nofun, ?_⟩
    by_cases idle : search.Idle
    · rw [propagate_of_idle idle]
      exact ⟨.none search, idle⟩
    · have refused : search.step.outcome = .error (.error .finished) := by
        rw [step, if_pos finished]
      rw [propagate_of_finished idle finished]
      exact refused
  | false =>
    have comes := search.comes_propagate
    generalize search.propagate = propagation at comes
    cases comes with
    | drained narrows idle =>
      obtain ⟨more, narrowing, -, quiets, -⟩ := narrows.steps finished
      exact ⟨more, narrowing, quiets, idle⟩
    | contradiction narrows going moved taken unsupported refutes =>
      obtain ⟨more, narrowing, unfinished, -, advances⟩ := narrows.steps finished
      refine ⟨more, narrowing, ?_⟩
      unfold Ends
      rw [step_of_unfinished unfinished, advances, advance_of_report moved]
      exact refutes
    | failed narrows going moved fails =>
      obtain ⟨more, narrowing, unfinished, -, advances⟩ := narrows.steps finished
      refine ⟨more, narrowing, ?_⟩
      unfold Ends
      rw [step_of_unfinished unfinished, advances, advance_of_report moved]
      exact fails
    | finished finished' => cases finished.symm.trans finished'

end Search

end Tiling
