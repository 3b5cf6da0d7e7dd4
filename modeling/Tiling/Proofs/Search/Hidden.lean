import Tiling.Proofs.Search.Turns

/-!
Searches with nothing shown. Hiding what a search shows of its work leaves a search that makes the
same moves, but for inspections: a step that only shows a cell is left out, and any other is the
same.
-/

namespace Tiling

variable {κ σ : Type} [Key κ] [Key σ]

/-- The visit with none of its checks shown. -/
def Visit.hidden (visit : Visit κ) : Visit κ :=
  { visit with checks := visit.checks.map fun check => { check with inspected := false } }

/-- The search as it is when it does not show its work. -/
def Search.hidden (search : Search κ σ) : Search κ σ :=
  { search with marks := none, visit := search.visit.map Visit.hidden }

def Report.hidden (made : Report κ σ) : Report κ σ := { made with after := made.after.hidden }

def Snapshot.hidden (snapshot : Snapshot κ σ) : Snapshot κ σ := { snapshot with marks := none }

def Step.hidden : Step κ σ → Step κ σ
  | progress snapshot => progress snapshot.hidden
  | done snapshot => done snapshot.hidden

/-- The turn as it is when nothing is shown. -/
def Turn.hidden (turn : Turn κ σ) : Turn κ σ :=
  { turn with after := turn.after.hidden, outcome := turn.outcome.map Step.hidden }

/-- Whether the turn only shows a cell. -/
def Turn.isInspection (turn : Turn κ σ) : Bool := turn.event?.any Event.isInspection

theorem Report.turn_hidden (made : Report κ σ) : made.hidden.turn = made.turn.hidden := by
  obtain ⟨after, verdict, notices⟩ := made
  cases verdict <;> rfl

theorem Report.after_turn {made : Report κ σ} (shown : made.turn.isInspection = true) :
    made.turn.after = made.after := by
  obtain ⟨after, verdict, notices⟩ := made
  cases verdict with
  | progress => rfl
  | done | failed => cases shown

omit [Key κ] in
theorem Check.hidden_ofAdjacency {support : Support σ} {cell : Cell κ σ}
    {adjacency : List (σ × Neighbour κ)} {checks : List (Check κ)}
    (listed : Check.ofAdjacency support cell adjacency = .ok checks) :
    (checks.map fun check => { check with inspected := false }) = checks := by
  induction adjacency generalizing checks with
  | nil =>
    cases listed
    rfl
  | cons arc rest ih =>
    obtain ⟨others, later, ⟨-, rfl⟩ | ⟨neighbour, allowed, -, -, -, rfl⟩⟩ :=
      Check.ofAdjacency_cons_ok listed
    · exact ih later
    · rw [List.map_cons, ih later]

namespace Search

variable {search : Search κ σ}

theorem undo_hidden (search : Search κ σ) (index : Nat) :
    search.hidden.undo index =
      (search.undo index).map fun (made, after) => (made, after.hidden) := by
  have trail : search.hidden.trail = search.trail := rfl
  unfold undo
  rw [trail]
  cases search.trail.cutAt index with
  | error reason => rfl
  | ok cut =>
    obtain ⟨entry, older⟩ := cut
    match entry with
    | none => rfl
    | some (.decision made) => rfl
    | some (.narrowing made) => rfl

theorem retreat_hidden (search : Search κ σ) (notices : List (Notice κ)) :
    search.hidden.retreat notices = (search.retreat notices).hidden := by
  have trail : search.hidden.trail = search.trail := rfl
  unfold retreat
  rw [trail]
  cases search.trail.lastDecision? with
  | none => rfl
  | some index =>
    simp only [undo_hidden]
    cases search.undo index <;> rfl

theorem contradict_hidden (search : Search κ σ) (source cell : κ) :
    search.hidden.contradict source cell = (search.contradict source cell).hidden :=
  retreat_hidden (search.mark cell .conflict) _

theorem constrain_hidden (search : Search κ σ) (source id : κ) (cell : Cell κ σ)
    (tiles : Candidates) :
    search.hidden.constrain source id cell tiles =
      (search.constrain source id cell tiles).hidden := by
  unfold constrain
  split
  · exact contradict_hidden search source id
  · rw [narrow_eq, narrow_eq]
    cases cell.restrict tiles <;> rfl

theorem collapse_hidden (search : Search κ σ) (id : κ) (cell : Cell κ σ) (tried : Candidates)
    (options : List Nat) :
    search.hidden.collapse id cell tried options =
      (search.collapse id cell tried options).map fun (tile, after) => (tile, after.hidden) := by
  have rules : search.hidden.rules = search.rules := rfl
  have drawn : search.hidden.drawn = search.drawn := rfl
  unfold collapse
  rw [rules, drawn]
  cases choose search.rules.weighting search.rules.draws search.drawn id options with
  | error reason => rfl
  | ok picked =>
    obtain ⟨tile, drawn⟩ := picked
    simp only [bind, Except.bind]
    cases cell.observe tile with
    | error reason => rfl
    | ok settled => cases (tried.grow search.rules.tileCount).insertBelow tile <;> rfl

theorem settle_hidden (search : Search κ σ) (id : κ) :
    search.hidden.settle id = (search.settle id).hidden := by
  have triedOn : search.hidden.triedOn id = search.triedOn id := rfl
  have position : search.hidden.position = search.position := rfl
  simp only [settle, triedOn, position]
  cases search.position.board.get? id with
  | none => rfl
  | some cell =>
    simp only
    split
    · rfl
    · split
      · exact retreat_hidden { search with retry := none } _
      · have same := collapse_hidden { search with retry := none } id cell (search.triedOn id)
          (cell.candidates.diff (search.triedOn id)).toList
        simp only [hidden] at same ⊢
        rw [same]
        cases ({ search with retry := none } : Search κ σ).collapse id cell (search.triedOn id)
            (cell.candidates.diff (search.triedOn id)).toList with
        | error reason => rfl
        | ok picked => rfl

theorem select_hidden (search : Search κ σ) :
    search.hidden.select = search.select.hidden := by
  have position : search.hidden.position = search.position := rfl
  unfold select
  rw [position]
  cases search.position.entropy.lowest? with
  | some id => exact settle_hidden search.clearMarks id
  | none =>
    simp only
    split <;> rfl

theorem hidden_openVisit {id : κ} {visit : Visit κ} (opened : search.openVisit id = .ok visit) :
    visit.hidden = visit := by
  unfold openVisit at opened
  split at opened
  · cases opened
  · split at opened
    · cases opened
    · rename_i listed
      cases opened
      simp only [Visit.hidden, Check.hidden_ofAdjacency listed]

theorem move_of_queued {id : κ} {pending : List κ} (unvisited : search.visit = none)
    (queued : search.pending = id :: pending) :
    search.move = match search.openVisit id with
      | .error reason => .report (.error { search with pending } reason [])
      | .ok visit => .quiet { search with pending, visit := some visit } := by
  simp only [move, unvisited, queued]
  rfl

/-- What becomes of a move when nothing is shown: an inspection is left out or made without a word,
and any other move stays what it is. -/
inductive Hides (search : Search κ σ) : Move κ σ → Prop where
  | quiet {after : Search κ σ} (moved : search.hidden.move = .quiet after.hidden) :
      search.Hides (.quiet after)
  | inspected {after : Search κ σ} {cell : κ} {mark : Mark} {notices : List (Notice κ)}
      (moved : after.hidden = search.hidden ∨ search.hidden.move = .quiet after.hidden) :
      search.Hides (.report ⟨after, .progress (.inspected cell mark), notices⟩)
  | reported {made : Report κ σ} (moved : search.hidden.move = .report made.hidden) :
      search.Hides (.report made)

private theorem hides_examine {visit : Visit κ} {check : Check κ} {checks : List (Check κ)}
    (visiting : search.visit = some visit) (announced : visit.announced = true)
    (listed : visit.checks = check :: checks) :
    search.Hides ((search.withChecks visit checks).examine visit.source check) := by
  have move : search.hidden.move = (search.withChecks visit checks).hidden.examine visit.source
      { check with inspected := false } := by
    simp [move, hidden, visiting, Visit.hidden, announced, listed, withChecks]
  have board : (search.withChecks visit checks).position.board = search.position.board := rfl
  have board' : (search.withChecks visit checks).hidden.position.board =
      search.position.board := rfl
  unfold examine at move ⊢
  rw [board'] at move
  rw [board]
  cases found : search.position.board.get? check.neighbour with
  | none =>
    simp only [found] at move
    exact .reported move
  | some target =>
    cases settled : target.tile? with
    | some tile =>
      simp only [found, settled] at move ⊢
      split
      · rename_i held
        rw [if_pos held] at move
        exact .quiet move
      · rename_i unsupported
        rw [if_neg unsupported, contradict_hidden] at move
        exact .reported move
    | none =>
      have plain : (search.withChecks visit checks).hidden.isShowing = false := rfl
      simp only [found, settled, plain, Bool.false_and, Bool.false_eq_true, if_false] at move ⊢
      split
      · refine .inspected (.inl ?_)
        simp [hidden, withChecks, mark, Visit.hidden, visiting, listed]
      · split
        · rename_i within
          rw [if_pos within] at move
          split
          · exact .inspected (.inr move)
          · exact .quiet move
        · rename_i beyond
          rw [if_neg beyond, constrain_hidden] at move
          exact .reported move

theorem hides_move (search : Search κ σ) : search.Hides search.move := by
  unfold move
  split
  · rename_i visit visiting
    have hidden : search.hidden.visit = some visit.hidden := by
      simp [Search.hidden, visiting]
    split
    · rename_i fresh
      have moved : search.hidden.move =
          .quiet ({ search with visit := some { visit with announced := true } } :
            Search κ σ).hidden := by
        have fresh : (!visit.hidden.announced) = true := fresh
        simp only [move, hidden, fresh, if_true]
        rfl
      simp only [announce]
      split
      · exact .inspected (.inr moved)
      · exact .quiet moved
    · rename_i announced
      split
      · rename_i check checks listed
        exact hides_examine visiting (by simpa using announced) listed
      · rename_i listed
        have announced : ¬(!visit.hidden.announced) = true := announced
        have listed : visit.hidden.checks = [] := by simp [Visit.hidden, listed]
        refine .quiet ?_
        simp only [move, hidden, announced, listed, Bool.false_eq_true, if_false]
        rfl
  · rename_i unvisited
    have hidden : search.hidden.visit = none := by simp [Search.hidden, unvisited]
    split
    · rename_i id pending queued
      have moved := move_of_queued hidden queued
      have same : search.hidden.openVisit id = search.openVisit id := rfl
      have own : ({ search with pending } : Search κ σ).openVisit id = search.openVisit id := rfl
      rw [same] at moved
      simp only [own]
      cases opened : search.openVisit id with
      | error reason =>
        rw [opened] at moved
        exact .reported moved
      | ok visit =>
        rw [opened] at moved
        refine .quiet (moved.trans ?_)
        simp [Search.hidden, hidden_openVisit opened]
    · rename_i drained
      have drained : search.hidden.pending = [] := drained
      refine .reported ?_
      simp only [move, hidden, drained, select_hidden]

theorem Tends.isShowing {after : Search κ σ} {event : Option (Event κ)}
    (tends : search.Tends event after) : after.isShowing = search.isShowing := by
  cases tends <;> simp [Search.isShowing, mark, withChecks]

theorem Quiets.isShowing {last : Search κ σ} (quiets : search.Quiets last) :
    last.isShowing = search.isShowing := by
  induction quiets with
  | none => rfl
  | move tends _ ih => exact ih.trans tends.isShowing

theorem of_isInspection (shown : search.step.isInspection = true) :
    search.isShowing = true ∧ search.finished = false ∧ search.step.after.finished = false ∧
      search.Keeps search.step.after := by
  obtain ⟨event, reported, inspection⟩ := (Option.any_eq_true _ _).mp shown
  obtain ⟨unfinished, last, quiets, moved⟩ := moves_of_event? reported
  have reaches : search.Reaches last := Reaches.start.quiets quiets
  have going := (reaches.move moved).finished.trans unfinished
  generalize search.step.after = after at moved going
  cases moved with
  | tended tends =>
    have showing : last.isShowing = true := by
      cases tends <;> assumption
    exact ⟨quiets.isShowing.symm.trans showing, unfinished, going,
      quiets.keeps.trans tends.keeps⟩
  | narrowed | settled | undone => cases inspection

theorem hides_advance (search : Search κ σ) :
    search.hidden.advance = search.advance.hidden ∨
      search.advance.turn.isInspection = true ∧
        search.advance.after.hidden.advance = search.hidden.advance := by
  induction search using advance.induct with
  | case1 search after quiet ih =>
    have hides := search.hides_move
    rw [quiet] at hides
    rw [advance_of_quiet quiet]
    cases hides with
    | quiet moved => rwa [advance_of_quiet moved]
  | case2 search made reported =>
    have hides := search.hides_move
    rw [reported] at hides
    rw [advance_of_report reported]
    cases hides with
    | reported moved => exact .inl (advance_of_report moved)
    | inspected moved =>
      refine .inr ⟨rfl, ?_⟩
      rcases moved with same | moved
      · exact congrArg advance same
      · exact (advance_of_quiet moved).symm

theorem Turn.isInspection_hidden (turn : Turn κ σ) :
    turn.hidden.isInspection = turn.isInspection := by
  obtain ⟨after, _ | _ | _, notices⟩ := turn <;> rfl

/-- A step that only shows a cell is left out when nothing is shown; any other step is the same. -/
theorem hides_step (search : Search κ σ) :
    search.step.isInspection = false ∧ search.hidden.step = search.step.hidden ∨
      search.step.isInspection = true ∧ search.step.after.hidden.step = search.hidden.step := by
  cases finished : search.finished with
  | true =>
    have finished' : search.hidden.finished = true := finished
    refine .inl ?_
    rw [step, step, if_pos finished, if_pos finished']
    exact ⟨rfl, rfl⟩
  | false =>
    have unfinished : search.hidden.finished = false := finished
    rw [step_of_unfinished unfinished]
    rcases search.hides_advance with same | ⟨shown, same⟩
    · rw [same, Report.turn_hidden, ← step_of_unfinished finished]
      refine .inl ⟨?_, rfl⟩
      rw [← Turn.isInspection_hidden, step_of_unfinished finished, ← Report.turn_hidden, ← same,
        ← step_of_unfinished unfinished, Bool.eq_false_iff]
      intro shown
      cases (of_isInspection shown).1
    · rw [← step_of_unfinished finished] at shown
      obtain ⟨-, -, going, -⟩ := of_isInspection shown
      have going : search.step.after.hidden.finished = false := going
      refine .inr ⟨shown, ?_⟩
      rw [step_of_unfinished going, step_of_unfinished finished, Report.after_turn, same]
      rwa [← step_of_unfinished finished]

end Search

end Tiling
