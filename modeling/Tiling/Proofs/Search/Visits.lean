import Tiling.Proofs.Search.Turns
import Tiling.Proofs.Search.Worklist

/-!
Where a visit comes from. A visit under way was opened in some step of the run, by a quiet move, and
no move since has closed it. Its checks hold what the candidates that the visited cell had at that
move support.
-/

namespace Tiling

variable {κ σ : Type} [Key κ] [Key σ]

/-- The search after the move, if it goes on. -/
def Move.after? : Move κ σ → Option (Search κ σ)
  | quiet after => some after
  | report ⟨after, .progress _, _⟩ => some after
  | report _ => none

namespace Search

variable {search after opening : Search κ σ} {event : Option (Event κ)}

theorem exists_moves_of_after? (moved : search.move.after? = some after) :
    ∃ event, search.Moves event after := by
  have answer := search.answers_move
  generalize search.move = move at moved answer
  cases answer with
  | quiet changed =>
    cases moved
    exact ⟨none, changed⟩
  | progress notices changed =>
    cases moved
    exact ⟨_, changed⟩
  | done | failed => cases moved

theorem Takes.move_eq {visit : Visit κ} {check : Check κ} {checks : List (Check κ)}
    {target : Cell κ σ} (taken : search.Takes visit check checks target) :
    search.move = (search.withChecks visit checks).examine visit.source check := by
  simp only [move, taken.visiting, taken.announced, taken.listed, Bool.not_true, Bool.false_eq_true,
    if_false, withChecks]

theorem Takes.examine_of_supported {visit : Visit κ} {check : Check κ} {checks : List (Check κ)}
    {target : Cell κ σ} (taken : search.Takes visit check checks target)
    (supported : ∀ tile ∈ target.candidates, tile ∈ check.allowed)
    (quiet : target.collapsed = true ∨ search.isShowing = false) :
    (search.withChecks visit checks).examine visit.source check =
      .quiet (search.withChecks visit checks) := by
  have found : (search.withChecks visit checks).position.board.get? check.neighbour =
      some target := taken.found
  have showing : (search.withChecks visit checks).isShowing = search.isShowing := rfl
  unfold examine
  cases settled : target.tile? with
  | some tile =>
    have member := (Cell.tile?_eq_some_iff.mp settled tile).mpr rfl
    simp [found, settled, supported tile member]
  | none =>
    rcases quiet with collapsed | hidden
    · simp [Cell.tile?_eq_none_iff.mp settled] at collapsed
    · simp [found, settled, showing, hidden, Candidates.isSubset_iff.mpr supported]

theorem Takes.examine_of_cut {visit : Visit κ} {check : Check κ} {checks : List (Check κ)}
    {target cell : Cell κ σ} (taken : search.Takes visit check checks target)
    (undecided : target.collapsed = false)
    (inspected : search.isShowing = true → check.inspected = true)
    (cut : ∃ tile ∈ target.candidates, tile ∉ check.allowed)
    (left : ∃ tile ∈ target.candidates, tile ∈ check.allowed)
    (restricted : target.restrict (target.candidates.inter check.allowed) = .ok cell) :
    ∃ notices, (search.withChecks visit checks).examine visit.source check =
      .report ⟨(search.withChecks visit checks).narrowedTo visit.source check.neighbour cell
        (target.candidates.inter check.allowed), .progress (.updated visit.source check.neighbour),
        notices⟩ := by
  have found : (search.withChecks visit checks).position.board.get? check.neighbour =
      some target := taken.found
  have showing : (search.withChecks visit checks).isShowing = search.isShowing := rfl
  have settled := Cell.tile?_eq_none_iff.mpr undecided
  have unshown : (search.isShowing && !check.inspected) = false := by
    cases shown : search.isShowing with
    | false => rfl
    | true => simp [inspected shown]
  have beyond : target.candidates.isSubset check.allowed = false := by
    obtain ⟨tile, member, unsupported⟩ := cut
    apply Bool.eq_false_iff.mpr
    intro within
    exact unsupported (Candidates.isSubset_iff.mp within tile member)
  have nonempty : (target.candidates.inter check.allowed).count ≠ 0 := by
    obtain ⟨tile, member, supported⟩ := left
    exact Candidates.count_ne_zero_of_mem (Candidates.mem_inter.mpr ⟨member, supported⟩)
  unfold examine constrain
  simp only [found, settled, showing, unshown, beyond, nonempty, Bool.false_eq_true, if_false,
    narrow_eq, restricted, Except.map]
  exact ⟨_, rfl⟩

/-- Every change that leaves a visit under way is the move that the search makes. -/
theorem Moves.after?_move (moved : search.Moves event after)
    (visiting : after.visit.isSome = true) : search.move.after? = some after := by
  cases moved with
  | tended tends =>
    cases tends with
    | opened unvisited queued found listed =>
      simp [move, unvisited, queued, openVisit, found, listed, Move.after?]
    | announced under fresh plain =>
      have plain : search.marks.isSome = false := plain
      simp [move, under, fresh, announce, isShowing, plain, Move.after?]
    | shown under fresh showing =>
      have showing : search.marks.isSome = true := showing
      simp [move, under, fresh, announce, isShowing, showing, Move.after?, Report.inspected]
    | closed => cases visiting
    | previewed taken undecided showing fresh =>
      have found := taken.found
      have showing : search.marks.isSome = true := showing
      rw [taken.move_eq]
      simp [examine, withChecks, found, Cell.tile?_eq_none_iff.mpr undecided, isShowing, showing,
        fresh, preview, Report.inspected, Move.after?]
    | passed taken supported quiet =>
      rw [taken.move_eq, taken.examine_of_supported supported quiet]
      rfl
    | unchanged taken undecided supported showing inspected =>
      have found := taken.found
      have showing : search.marks.isSome = true := showing
      rw [taken.move_eq]
      simp [examine, withChecks, found, Cell.tile?_eq_none_iff.mpr undecided, isShowing, showing,
        inspected, Candidates.isSubset_iff.mpr supported, Report.inspected, Move.after?]
  | narrowed taken undecided inspected cut left restricted =>
    obtain ⟨notices, examined⟩ :=
      taken.examine_of_cut undecided inspected cut left restricted
    rw [taken.move_eq, examined]
    rfl
  | settled selected =>
    have unvisited := selected.unvisited
    simp [settledOn, mark, clearMarks, unvisited] at visiting
  | undone => cases visiting

/-- The visit under way was opened by the move of an earlier state, and none since has closed it. -/
inductive Visits (opening : Search κ σ) : Search κ σ → Prop where
  | opened {after : Search κ σ} (unvisited : opening.visit = none)
      (moved : opening.move.after? = some after) (visiting : after.visit.isSome = true) :
      opening.Visits after
  | kept {search after : Search κ σ} (visits : opening.Visits search)
      (moved : search.move.after? = some after) (visiting : after.visit.isSome = true) :
      opening.Visits after

/-- The checks of a visit hold what the candidates of a cell across its slots support. -/
def ChecksOf (search : Search κ σ) (visit : Visit κ) (given : Cell κ σ) : Prop :=
  ∀ check ∈ visit.checks, ∃ slot, search.rules.Arc visit.source given slot check.neighbour ∧
    search.rules.support.acrossAny given.candidates slot = .ok check.allowed

theorem Moves.opens (moved : search.Moves event after) (unvisited : search.visit = none)
    (visiting : after.visit.isSome = true) : ∃ visit given, after.visit = some visit ∧
      search.position.board.get? visit.source = some given ∧ search.ChecksOf visit given := by
  cases moved with
  | tended tends =>
    cases tends with
    | @opened id pending cell checks _ queued found listed =>
      refine ⟨{ source := id, checks }, cell, rfl, found, fun check member => ?_⟩
      obtain ⟨slot, arc, own, across⟩ := Check.arc_of_mem_ofAdjacency listed member
      exact ⟨slot, ⟨arc, own⟩, across⟩
    | announced under | shown under | closed under => cases unvisited.symm.trans under
    | previewed taken | passed taken | unchanged taken =>
      cases unvisited.symm.trans taken.visiting
  | narrowed taken => cases unvisited.symm.trans taken.visiting
  | settled selected =>
    have unvisited := selected.unvisited
    simp [settledOn, mark, clearMarks, unvisited] at visiting
  | undone => cases visiting

/-- As long as a visit is under way, it is about the same cell, and its checks only grow fewer. -/
theorem Moves.resumes (moved : search.Moves event after) {visit : Visit κ}
    (under : search.visit = some visit) (visiting : after.visit.isSome = true) :
    ∃ next, after.visit = some next ∧ next.source = visit.source ∧
      ∀ check ∈ next.checks, ∃ earlier ∈ visit.checks,
        earlier.neighbour = check.neighbour ∧ earlier.allowed = check.allowed := by
  cases moved with
  | tended tends =>
    cases tends with
    | opened unvisited => cases unvisited.symm.trans under
    | announced under' | shown under' =>
      cases under.symm.trans under'
      exact ⟨_, rfl, rfl, fun check member => ⟨check, member, rfl, rfl⟩⟩
    | closed => cases visiting
    | @previewed _ first checks _ taken =>
      cases under.symm.trans taken.visiting
      refine ⟨_, rfl, rfl, fun check member => ?_⟩
      rcases List.mem_cons.mp member with rfl | member
      · exact ⟨first, taken.mem, rfl, rfl⟩
      · exact ⟨check, taken.mem_of_mem member, rfl, rfl⟩
    | passed taken | unchanged taken =>
      cases under.symm.trans taken.visiting
      exact ⟨_, rfl, rfl, fun check member => ⟨check, taken.mem_of_mem member, rfl, rfl⟩⟩
  | narrowed taken =>
    cases under.symm.trans taken.visiting
    exact ⟨_, rfl, rfl, fun check member => ⟨check, taken.mem_of_mem member, rfl, rfl⟩⟩
  | settled selected => cases under.symm.trans selected.unvisited
  | undone => cases visiting

theorem rules_of_after? (moved : search.move.after? = some after) : after.rules = search.rules := by
  obtain ⟨event, changed⟩ := exists_moves_of_after? moved
  exact changed.rules

theorem Visits.rules (visits : opening.Visits search) : search.rules = opening.rules := by
  induction visits with
  | opened unvisited moved => exact rules_of_after? moved
  | kept _ moved _ ih => exact (rules_of_after? moved).trans ih

/-- The checks of the visit under way hold what the visited cell supported when it was opened. -/
theorem Visits.checks (visits : opening.Visits search) :
    ∃ visit given, search.visit = some visit ∧
      opening.position.board.get? visit.source = some given ∧ opening.ChecksOf visit given := by
  induction visits with
  | opened unvisited moved visiting =>
    obtain ⟨event, changed⟩ := exists_moves_of_after? moved
    exact changed.opens unvisited visiting
  | kept _ moved visiting ih =>
    obtain ⟨event, changed⟩ := exists_moves_of_after? moved
    obtain ⟨visit, given, under, found, checks⟩ := ih
    obtain ⟨next, under', source, fewer⟩ := changed.resumes under visiting
    refine ⟨next, given, under', source ▸ found, fun check member => ?_⟩
    obtain ⟨earlier, member, neighbour, allowed⟩ := fewer check member
    obtain ⟨slot, arc, across⟩ := checks earlier member
    exact ⟨slot, source ▸ neighbour ▸ arc, allowed ▸ across⟩

theorem Quiets.trans {first second third : Search κ σ} (earlier : first.Quiets second)
    (later : second.Quiets third) : first.Quiets third := by
  induction earlier with
  | none => exact later
  | move tends _ ih => exact .move tends (ih later)

/-- The visit under way, if there is one, was opened during one of the steps up to a step. -/
def VisitedSince (first : Search κ σ) (steps : Nat) (search : Search κ σ) : Prop :=
  search.visit.isSome = true → ∃ began ≤ steps, ∃ opening,
    (first.afterSteps began).Quiets opening ∧ opening.Visits search

variable {first : Search κ σ} {steps : Nat}

theorem VisitedSince.moves (since : first.VisitedSince steps search)
    (reached : (first.afterSteps steps).Quiets search) (moved : search.Moves event after) :
    first.VisitedSince steps after := by
  intro visiting
  have next := moved.after?_move visiting
  cases under : search.visit with
  | none => exact ⟨steps, Nat.le_refl _, search, reached, .opened under next visiting⟩
  | some visit =>
    obtain ⟨began, most, opening, quiets, visits⟩ := since (by simp [under])
    exact ⟨began, most, opening, quiets, .kept visits next visiting⟩

theorem VisitedSince.quiets {last : Search κ σ} (since : first.VisitedSince steps search)
    (reached : (first.afterSteps steps).Quiets search) (quiets : search.Quiets last) :
    first.VisitedSince steps last := by
  induction quiets with
  | none => exact since
  | move tends _ ih =>
    exact ih (since.moves reached (.tended tends)) (reached.trans (.move tends (.none _)))

/-- In every state of a run that goes on, the visit under way was opened in an earlier step. -/
theorem visitedSince_afterSteps (unvisited : first.visit = none)
    (unfinished : (first.afterSteps steps).finished = false) :
    first.VisitedSince steps (first.afterSteps steps) := by
  induction steps with
  | zero =>
    intro visiting
    change first.visit.isSome = true at visiting
    rw [unvisited] at visiting
    cases visiting
  | succ steps ih =>
    have taken := (first.afterSteps steps).steps_step
    unfold afterSteps at unfinished ⊢
    generalize (first.afterSteps steps).step = turn at taken unfinished
    cases taken with
    | progress notices going quiets moved =>
      have since := ((ih going).quiets (.none _) quiets).moves quiets moved
      intro visiting
      obtain ⟨began, most, rest⟩ := since visiting
      exact ⟨began, Nat.le_succ_of_le most, rest⟩
    | done | failed => cases unfinished
    | refused finished => cases finished.symm.trans unfinished

end Search

end Tiling
