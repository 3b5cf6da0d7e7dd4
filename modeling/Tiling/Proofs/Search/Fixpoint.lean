import Tiling.Proofs.Search.History
import Tiling.Proofs.Search.Propagation
import Tiling.Proofs.Search.Worklist

/-!
What narrowing computes. A board is closed when the candidates of each cell that was queued or has
lost a candidate support all those of its neighbours. Narrowing to the end comes to the greatest
closed board, and so to the same one whatever the order of the queue or of the neighbours listed.
-/

namespace Tiling

variable {κ σ : Type} [Key κ] [Key σ]

/-- If neither failed, both came to a contradiction or to the same candidates. -/
def Propagation.Agrees : Propagation κ σ → Propagation κ σ → Prop
  | .drained last, .drained other => last.position.board.Matches other.position.board
  | .contradiction, .contradiction => True
  | .failed _, _ => True
  | _, .failed _ => True
  | _, _ => False

namespace Search

variable {first search after last : Search κ σ} {event : Option (Event κ)} {board : Board κ σ}

/-- The cell is queued, or has lost a candidate that it has in this state. -/
def Touched (search : Search κ σ) (id : κ) (cell : Cell κ σ) : Prop :=
  id ∈ search.pending ∨ ∃ given tile, search.position.board.get? id = some given ∧
    tile ∈ given.candidates ∧ tile ∉ cell.candidates

/-- A board within that of a state is closed when the candidates of each touched cell support all
those of its neighbours. -/
structure Closed (search : Search κ σ) (board : Board κ σ) : Prop where
  within : board.Within search.position.board
  supported : ∀ id cell, board.get? id = some cell → search.Touched id cell →
    ∀ slot other target, search.rules.Arc id cell slot other → board.get? other = some target →
      ∀ tile ∈ target.candidates, ∃ source ∈ cell.candidates,
        search.rules.support.allows source slot tile = true

/-- What narrowing from one state to another keeps: touched cells are tended. -/
structure Continues (first search : Search κ σ) : Prop where
  rules : search.rules = first.rules
  within : search.position.board.Within first.position.board
  tended : search.Tended first.Touched

theorem Continues.refl (first : Search κ σ) : first.Continues first := by
  refine ⟨rfl, .refl _, ?_⟩
  intro id cell found touching
  rcases touching with queued | ⟨given, tile, found', member, absent⟩
  · exact .inl queued
  · cases found.symm.trans found'
    exact absurd member absent

theorem Continues.moves (continues : first.Continues search) (moved : search.Moves event after)
    (narrows : event.all Event.isNarrowing = true) : first.Continues after := by
  obtain ⟨rules, within, tended⟩ := continues
  have rules := moved.rules.trans rules
  cases moved with
  | tended tends => exact ⟨rules, tends.keeps.position ▸ within, tended.tends tends⟩
  | narrowed taken undecided inspected cut left restricted =>
    obtain ⟨subset, candidates, slots⟩ := Cell.restrict_ok restricted
    refine ⟨rules, (Board.within_put taken.found slots ?_).trans within,
      tended.narrowed taken restricted⟩
    intro tile member
    exact subset tile (candidates ▸ member)
  | settled | undone => cases narrows

theorem Narrows.continues (narrows : search.Narrows last) : search.Continues last :=
  narrows.keeps (fun _ _ _ continues moved narrowing => continues.moves moved narrowing)
    (.refl search)

theorem Continues.closed (continues : first.Continues last) (idle : last.Idle) :
    first.Closed last.position.board := by
  refine ⟨continues.within, ?_⟩
  intro id cell found touched slot other target arc present tile member
  rw [← continues.rules] at arc ⊢
  obtain ⟨facing, allowed, present', across, supported⟩ :=
    continues.tended.serves idle found touched arc
  cases present.symm.trans present'
  exact (Support.mem_acrossAny_iff_allows across tile).mp (supported tile member)

/-- Narrowing has not gone below a closed board: the search has all its candidates, and what is
queued or in hand takes none of them away. -/
structure Spares (first search : Search κ σ) (board : Board κ σ) : Prop where
  continues : first.Continues search
  within : board.Within search.position.board
  queued : ∀ id ∈ search.pending, ∀ cell, board.get? id = some cell → first.Touched id cell
  checks : ∀ visit, search.visit = some visit → ∀ check ∈ visit.checks, ∀ target,
    board.get? check.neighbour = some target → ∀ tile ∈ target.candidates, tile ∈ check.allowed

theorem Spares.allowed (spares : first.Spares search board) (closed : first.Closed board) {id : κ}
    {cell : Cell κ σ} (queued : id ∈ search.pending)
    (found : search.position.board.get? id = some cell) {checks : List (Check κ)}
    (listed : Check.ofAdjacency search.rules.support cell (search.rules.adjacency id) = .ok checks)
    {check : Check κ} (member : check ∈ checks) {target : Cell κ σ}
    (present : board.get? check.neighbour = some target) {tile : Nat}
    (held : tile ∈ target.candidates) : tile ∈ check.allowed := by
  obtain ⟨slot, arc, own, across⟩ := Check.arc_of_mem_ofAdjacency listed member
  have onBoard : (board.get? id).isSome = true :=
    (Board.isSome_of_keys_eq spares.within.keys).mpr (by simp [found])
  obtain ⟨smaller, found'⟩ := Option.isSome_iff_exists.mp onBoard
  obtain ⟨given, found'', slots, candidates⟩ := spares.within.cell id smaller found'
  cases found.symm.trans found''
  rw [← slots] at own
  rw [spares.continues.rules] at arc across
  have spared := spares.queued id queued smaller found'
  obtain ⟨source, candidate, allows⟩ := closed.supported id smaller found' spared slot
    check.neighbour target ⟨arc, own⟩ present tile held
  exact (Support.mem_acrossAny_iff_allows across tile).mpr
    ⟨source, candidates source candidate, allows⟩

theorem Spares.resumed (spares : first.Spares search board) (kept : search.Keeps after)
    (pending : after.pending = search.pending)
    (checks : ∀ visit, after.visit = some visit → ∀ check ∈ visit.checks,
      ∃ visit' check', search.visit = some visit' ∧ check' ∈ visit'.checks ∧
        check'.neighbour = check.neighbour ∧ check'.allowed = check.allowed)
    (continues : first.Continues after) : first.Spares after board := by
  refine ⟨continues, kept.position ▸ spares.within, pending ▸ spares.queued, ?_⟩
  intro visit visiting check member target present tile held
  obtain ⟨visit', check', visiting', member', neighbour, allowed⟩ :=
    checks visit visiting check member
  rw [← neighbour] at present
  exact allowed ▸ spares.checks visit' visiting' check' member' target present tile held

theorem Spares.tends (spares : first.Spares search board) (closed : first.Closed board)
    (tends : search.Tends event after) (continues : first.Continues after) :
    first.Spares after board := by
  have kept := tends.keeps
  cases tends with
  | @opened id pending cell checks unvisited queued found listed =>
    have head : id ∈ search.pending := queued ▸ List.mem_cons_self
    refine ⟨continues, spares.within, ?_, ?_⟩
    · intro other member
      exact spares.queued other (queued ▸ List.mem_cons_of_mem id member)
    · intro visit visiting check member target present tile held
      cases visiting
      exact spares.allowed closed head found listed member present held
  | announced visiting | shown visiting =>
    refine spares.resumed kept rfl ?_ continues
    intro visit resumed check member
    cases resumed
    exact ⟨_, check, visiting, member, rfl, rfl⟩
  | closed => exact spares.resumed kept rfl nofun continues
  | @previewed visit shown checks target taken =>
    refine spares.resumed kept rfl ?_ continues
    intro visit resumed check member
    cases resumed
    rcases List.mem_cons.mp member with rfl | member
    · exact ⟨_, shown, taken.visiting, taken.mem, rfl, rfl⟩
    · exact ⟨_, check, taken.visiting, taken.mem_of_mem member, rfl, rfl⟩
  | passed taken | unchanged taken =>
    refine spares.resumed kept rfl ?_ continues
    intro visit resumed check member
    cases resumed
    exact ⟨_, check, taken.visiting, taken.mem_of_mem member, rfl, rfl⟩

theorem Spares.narrowed {visit : Visit κ} {check : Check κ} {checks : List (Check κ)}
    {target cell : Cell κ σ} (spares : first.Spares search board)
    (taken : search.Takes visit check checks target)
    (cut : ∃ tile ∈ target.candidates, tile ∉ check.allowed)
    (restricted : target.restrict (target.candidates.inter check.allowed) = .ok cell)
    (continues : first.Continues ((search.withChecks visit checks).narrowedTo visit.source
      check.neighbour cell (target.candidates.inter check.allowed))) :
    first.Spares ((search.withChecks visit checks).narrowedTo visit.source check.neighbour cell
      (target.candidates.inter check.allowed)) board := by
  obtain ⟨-, candidates, slots⟩ := Cell.restrict_ok restricted
  have kept : ∀ own, board.get? check.neighbour = some own → ∀ tile ∈ own.candidates,
      tile ∈ cell.candidates := by
    intro own found tile member
    obtain ⟨given, present, -, within⟩ := spares.within.cell check.neighbour own found
    cases taken.found.symm.trans present
    rw [candidates]
    exact Candidates.mem_inter.mpr ⟨within tile member,
      spares.checks visit taken.visiting check taken.mem own found tile member⟩
  refine ⟨continues, spares.within.put taken.found slots kept, ?_, ?_⟩
  · intro id queued own found
    rcases List.mem_append.mp queued with queued | single
    · exact spares.queued id queued own found
    · cases List.mem_singleton.mp single
      obtain ⟨lost, member, unsupported⟩ := cut
      obtain ⟨given, present, -, within⟩ :=
        spares.continues.within.cell check.neighbour target taken.found
      refine .inr ⟨given, lost, present, within lost member, fun held => unsupported ?_⟩
      have left := kept own found lost held
      rw [candidates] at left
      exact (Candidates.mem_inter.mp left).2
  · intro visit' resumed other member
    cases resumed
    exact spares.checks visit taken.visiting other (taken.mem_of_mem member)

theorem Spares.moves (spares : first.Spares search board) (closed : first.Closed board)
    (moved : search.Moves event after) (narrows : event.all Event.isNarrowing = true) :
    first.Spares after board := by
  have continues := spares.continues.moves moved narrows
  cases moved with
  | tended tends => exact spares.tends closed tends continues
  | narrowed taken undecided inspected cut left restricted =>
    exact spares.narrowed taken cut restricted continues
  | settled | undone => cases narrows

/-- Narrowing takes no candidate away that a closed board has. -/
theorem Narrows.spares (narrows : first.Narrows last) (unvisited : first.visit = .none)
    (closed : first.Closed board) : first.Spares last board := by
  have start : first.Spares first board := by
    refine ⟨.refl first, closed.within, fun id queued cell _ => .inl queued, ?_⟩
    intro visit visiting
    cases unvisited.symm.trans visiting
  have kept : ∀ (search after : Search κ σ) (event : Option (Event κ)), first.Spares search board →
      search.Moves event after → event.all Event.isNarrowing = true → first.Spares after board :=
    fun _ _ _ spares moved narrowing => spares.moves closed moved narrowing
  exact narrows.keeps kept start

/-- What narrowing comes to is the greatest closed board, or every closed board has a cell without
candidates. -/
def Greatest (search : Search κ σ) : Propagation κ σ → Prop
  | .drained last => search.Closed last.position.board ∧
      ∀ board, search.Closed board → board.Within last.position.board
  | .contradiction => ∀ board, search.Closed board →
      ∃ id cell, board.get? id = some cell ∧ ∀ tile, tile ∉ cell.candidates
  | .failed _ => True

theorem greatest_propagate (unvisited : first.visit = none) : first.Greatest first.propagate := by
  have comes := first.comes_propagate
  generalize first.propagate = propagation at comes
  cases comes with
  | drained narrows idle =>
    exact ⟨narrows.continues.closed idle, fun board closed =>
      (narrows.spares unvisited closed).within⟩
  | @contradiction last made visit check checks target narrows going moved taken unsupported =>
    intro board closed
    have spares := narrows.spares unvisited closed
    have present : (board.get? check.neighbour).isSome = true :=
      (Board.isSome_of_keys_eq spares.within.keys).mpr (by simp [taken.found])
    obtain ⟨cell, found⟩ := Option.isSome_iff_exists.mp present
    obtain ⟨given, found', -, candidates⟩ := spares.within.cell check.neighbour cell found
    cases taken.found.symm.trans found'
    refine ⟨check.neighbour, cell, found, ?_⟩
    intro tile member
    exact unsupported tile (candidates tile member)
      (spares.checks visit taken.visiting check taken.mem cell found tile member)
  | failed | finished => trivial

theorem Moves.viable (viable : search.position.board.Viable) (moved : search.Moves event after)
    (narrows : event.all Event.isNarrowing = true) : after.position.board.Viable := by
  cases moved with
  | tended tends => exact tends.keeps.position ▸ viable
  | narrowed taken undecided inspected cut left restricted =>
    obtain ⟨tile, member, allowed⟩ := left
    obtain ⟨-, candidates, -⟩ := Cell.restrict_ok restricted
    refine viable.put ⟨tile, ?_⟩
    rw [candidates]
    exact Candidates.mem_inter.mpr ⟨member, allowed⟩
  | settled | undone => cases narrows

theorem Narrows.viable (narrows : search.Narrows last) (viable : search.position.board.Viable) :
    last.position.board.Viable := by
  have kept : ∀ (search after : Search κ σ) (event : Option (Event κ)),
      search.position.board.Viable → search.Moves event after →
        event.all Event.isNarrowing = true → after.position.board.Viable :=
    fun _ _ _ viable moved narrowing => moved.viable viable narrowing
  exact narrows.keeps kept viable

/-- The same state with its queue, and the neighbours listed for each cell, in another order. -/
structure Reorders (search other : Search κ σ) : Prop where
  support : other.rules.support = search.rules.support
  board : other.position.board = search.position.board
  unvisited : other.visit = none
  pending : other.pending.Perm search.pending
  adjacency : ∀ id, (other.rules.adjacency id).Perm (search.rules.adjacency id)

variable {other one two : Search κ σ}

theorem Reorders.closed_iff (reorders : search.Reorders other) :
    other.Closed board ↔ search.Closed board := by
  have touched : ∀ id cell, other.Touched id cell ↔ search.Touched id cell := by
    intro id cell
    unfold Touched
    rw [reorders.board, reorders.pending.mem_iff]
  have arc : ∀ id cell slot facing,
      other.rules.Arc id cell slot facing ↔ search.rules.Arc id cell slot facing := by
    intro id cell slot facing
    constructor
    · rintro ⟨listed, own⟩
      exact ⟨(reorders.adjacency id).mem_iff.mp listed, own⟩
    · rintro ⟨listed, own⟩
      exact ⟨(reorders.adjacency id).mem_iff.mpr listed, own⟩
  constructor
  · rintro ⟨within, supported⟩
    rw [reorders.board] at within
    rw [reorders.support] at supported
    simp only [touched, arc] at supported
    exact ⟨within, supported⟩
  · rintro ⟨within, supported⟩
    refine ⟨reorders.board ▸ within, ?_⟩
    rw [reorders.support]
    simp only [touched, arc]
    exact supported

theorem drained_viable (viable : search.position.board.Viable)
    (drained : search.propagate = .drained last) : last.position.board.Viable := by
  have comes := search.comes_propagate
  rw [drained] at comes
  cases comes with
  | drained narrows => exact narrows.viable viable

/-- Whatever the order of the queue and of the neighbours listed, narrowing comes to the same. -/
theorem agrees_of_reorders (viable : search.position.board.Viable)
    (reorders : search.Reorders one) (reorders' : search.Reorders two) :
    one.propagate.Agrees two.propagate := by
  have greatest := greatest_propagate reorders.unvisited
  have greatest' := greatest_propagate reorders'.unvisited
  have same : ∀ {board}, one.Closed board ↔ two.Closed board :=
    reorders.closed_iff.trans reorders'.closed_iff.symm
  have impossible : ∀ {board : Board κ σ}, board.Viable →
      ¬∃ id cell, board.get? id = some cell ∧ ∀ tile, tile ∉ cell.candidates := by
    rintro board viable ⟨id, cell, found, empty⟩
    obtain ⟨tile, member⟩ := viable id cell found
    exact empty tile member
  cases first : one.propagate with
  | drained last =>
    rw [first] at greatest
    cases second : two.propagate with
    | drained last' =>
      rw [second] at greatest'
      exact (greatest'.2 _ (same.mp greatest.1)).matches (greatest.2 _ (same.mpr greatest'.1))
    | contradiction =>
      rw [second] at greatest'
      have viable := drained_viable (reorders.board ▸ viable) first
      exact absurd (greatest' _ (same.mp greatest.1)) (impossible viable)
    | failed failure => trivial
  | contradiction =>
    rw [first] at greatest
    cases second : two.propagate with
    | drained last =>
      rw [second] at greatest'
      have viable := drained_viable (reorders'.board ▸ viable) second
      exact absurd (greatest _ (same.mpr greatest'.1)) (impossible viable)
    | contradiction => trivial
    | failed failure => trivial
  | failed failure => cases two.propagate <;> trivial

variable {τ π : Type} [Key π] {constraints : Constraints κ τ σ π}

/-- From any state of a run with no visit under way the steps narrow to the end. What that comes to
is the greatest closed board, or shows that every closed board has a cell without candidates; so it
does not depend on the order of the queue or of the neighbours listed. -/
theorem propagation_greatest (starts : constraints.Starts first) {steps : Nat}
    (unvisited : (first.afterSteps steps).visit = none) :
    (first.afterSteps steps).Shows (first.afterSteps steps).propagate ∧
    (first.afterSteps steps).Greatest (first.afterSteps steps).propagate ∧
    ∀ one two, (first.afterSteps steps).Reorders one → (first.afterSteps steps).Reorders two →
      one.Shows one.propagate ∧ two.Shows two.propagate ∧
        one.propagate.Agrees two.propagate := by
  obtain ⟨last, reaches, kept, -⟩ := reaches_afterSteps first steps
  have viable : (first.afterSteps steps).position.board.Viable :=
    kept.position ▸ reaches.viable starts
  refine ⟨shows_propagate _, greatest_propagate unvisited, ?_⟩
  intro one two reorders reorders'
  exact ⟨one.shows_propagate, two.shows_propagate, agrees_of_reorders viable reorders reorders'⟩

/-- Once the first cell is settled, narrowing drains the queue, and its board is the greatest closed
one. -/
theorem propagation_greatest_twoSided :
    ∃ first last, Constraints.twoSided.Starts first ∧ (first.afterSteps 1).visit = none ∧
      (first.afterSteps 1).pending = [0] ∧ (first.afterSteps 1).propagate = .drained last ∧
      (first.afterSteps 1).Closed last.position.board ∧
      ∀ board, (first.afterSteps 1).Closed board → board.Within last.position.board := by
  have computed : ((Constraints.twoSided.problem none (fun _ => 0) false).start.outcome.toOption.any
      fun first => (first.turnWithin 8 0).any (fun turn => turn.after.visit.isNone &&
          turn.after.pending = [0]) &&
        ((first.turnWithin 8 1).any (·.event? = some (.updated 0 1)) &&
          (first.turnWithin 8 2).any (·.isDone))) = true := by decide +kernel
  obtain ⟨first, starts, computed⟩ := Constraints.exists_starts computed
  obtain ⟨opened, computed⟩ := Bool.and_eq_true_iff.mp computed
  obtain ⟨narrowed, done⟩ := Bool.and_eq_true_iff.mp computed
  obtain ⟨unvisited, queued⟩ := Bool.and_eq_true_iff.mp (of_turnWithin opened)
  have unvisited : (first.afterSteps 1).visit = none := Option.isNone_iff_eq_none.mp unvisited
  have queued : (first.afterSteps 1).pending = [0] := of_decide_eq_true queued
  have narrowed := of_decide_eq_true (of_turnWithin narrowed)
  obtain ⟨snapshot, done⟩ := Turn.exists_of_isDone (of_turnWithin done)
  obtain ⟨⟨more, narrowing, ends⟩, greatest, -⟩ := propagation_greatest starts unvisited
  have few : more ≤ 1 := by
    by_contra beyond
    have narrowing := narrowing 1 (by omega)
    rw [← afterSteps_add, Turn.event?, done] at narrowing
    cases narrowing
  have fine : (∃ step, ((first.afterSteps 1).afterSteps more).step.outcome = .ok step) ∧
      ∀ cell, ((first.afterSteps 1).afterSteps more).step.event? ≠ some (.rolledBack cell) := by
    rw [← afterSteps_add]
    rcases Nat.le_one_iff_eq_zero_or_eq_one.mp few with rfl | rfl
    · obtain ⟨snapshot, outcome, -⟩ := Turn.reports_iff.mpr narrowed
      exact ⟨⟨_, outcome⟩, fun cell reported => by cases narrowed.symm.trans reported⟩
    · exact ⟨⟨_, done⟩, fun cell => by simp [Turn.event?, done]⟩
  obtain ⟨⟨step, fine⟩, stands⟩ := fine
  cases comes : (first.afterSteps 1).propagate with
  | drained last =>
    rw [comes] at greatest
    exact ⟨first, last, starts, unvisited, queued, comes, greatest⟩
  | contradiction =>
    rw [comes] at ends
    rcases ends with ⟨cell, undone⟩ | failed
    · exact absurd (Turn.reports_iff.mp undone) (stands cell)
    · cases fine.symm.trans failed
  | failed failure =>
    rw [comes] at ends
    cases fine.symm.trans ends

end Search

end Tiling
