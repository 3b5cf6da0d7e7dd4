import Tiling.Search.Run

/-!
What a move of a search can be. `Moves` lists the changes that a search makes to itself, each with
its guards and the event it is reported as, and `answers_move` says that a move is one of them, the
end of the search or a failure.
-/

namespace Tiling

variable {κ σ : Type} [Key κ] [Key σ]

/-- The position that the changes on a trail have led to. -/
def Rules.reached (rules : Rules κ σ) (entries : List (TrailEntry κ σ)) : Position κ σ :=
  (entries.head?.map (·.after)).getD rules.start

namespace Search

/-- The search with these checks left of a visit. -/
def withChecks (search : Search κ σ) (visit : Visit κ) (checks : List (Check κ)) : Search κ σ :=
  { search with visit := some { visit with checks } }

/-- The search after a cell was narrowed to some of its candidates. -/
def narrowedTo (search : Search κ σ) (source id : κ) (cell : Cell κ σ) (tiles : Candidates) :
    Search κ σ :=
  let position : Position κ σ :=
    { board := search.position.board.put id cell
      entropy := search.position.entropy.put id
        (Entropy.score search.rules.draws search.drawn tiles.count) search.tally.changes }
  { search.mark id .changed with
    position
    trail := search.trail.push (.narrowing { source, cell := id, tiles, after := position })
    pending := search.pending ++ [id]
    tally := { search.tally with updates := search.tally.updates + 1 }
    drawn := search.drawn + Entropy.drawsFor tiles.count }

/-- The search after a cell was settled on a tile, at which so many draws were taken in all. -/
def settledOn (search : Search κ σ) (id : κ) (cell : Cell κ σ) (tile : Nat) (tried : Candidates)
    (drawn : Nat) : Search κ σ :=
  let position : Position κ σ :=
    { board := search.position.board.put id cell
      entropy := search.position.entropy.put id Entropy.decided search.tally.changes }
  { search.mark id .collapsed with
    position
    trail := search.trail.push (.decision { cell := id, tile, tried, after := position })
    pending := search.pending ++ [id]
    tally := { search.tally with collapses := search.tally.collapses + 1 }
    drawn }

/-- The search after a decision and all that followed from it were undone. -/
def undone (search : Search κ σ) (marks : Option (Marks κ)) (made : Decision κ σ)
    (older : List (TrailEntry κ σ)) : Search κ σ :=
  { search with
    position := search.rules.reached older
    marks
    trail := ⟨older⟩
    pending := []
    visit := none
    retry := some ⟨made.cell, made.tried⟩
    tally := { search.tally with rollbacks := search.tally.rollbacks + 1 } }

/-- The next check of the visit under way, with the cell it is about. -/
structure Takes (search : Search κ σ) (visit : Visit κ) (check : Check κ) (checks : List (Check κ))
    (target : Cell κ σ) : Prop where
  visiting : search.visit = some visit
  announced : visit.announced = true
  listed : visit.checks = check :: checks
  found : search.position.board.get? check.neighbour = some target

/-- Nothing is left to narrow. -/
structure Idle (search : Search κ σ) : Prop where
  unvisited : search.visit = none
  drained : search.pending = []

/-- The cell to be settled next, once nothing is left to narrow. -/
structure Selects (search : Search κ σ) (id : κ) (cell : Cell κ σ) : Prop extends search.Idle where
  lowest : search.position.entropy.lowest? = some id
  found : search.position.board.get? id = some cell
  undecided : cell.collapsed = false

/-- The decisions that stand are refuted: a neighbour has no supported candidate, or all candidates
of the selected cell were tried. The marks are those the search then shows. -/
inductive Stuck (search : Search κ σ) : Option (Marks κ) → Prop where
  | conflict {visit : Visit κ} {check : Check κ} {checks : List (Check κ)} {target : Cell κ σ}
      (taken : search.Takes visit check checks target)
      (unsupported : ∀ tile ∈ target.candidates, tile ∉ check.allowed) :
      search.Stuck (search.mark check.neighbour .conflict).marks
  | spent {id : κ} {cell : Cell κ σ} (selected : search.Selects id cell)
      (tried : ∀ tile ∈ cell.candidates, tile ∈ search.triedOn id) :
      search.Stuck search.clearMarks.marks

/-- Moves that change nothing but what is left to do and what is shown. -/
inductive Tends (search : Search κ σ) : Option (Event κ) → Search κ σ → Prop where
  | opened {id : κ} {pending : List κ} {cell : Cell κ σ} {checks : List (Check κ)}
      (unvisited : search.visit = none) (queued : search.pending = id :: pending)
      (found : search.position.board.get? id = some cell)
      (listed : Check.ofAdjacency search.rules.support cell (search.rules.adjacency id) =
        .ok checks) :
      search.Tends none { search with pending, visit := some { source := id, checks } }
  | announced {visit : Visit κ} (visiting : search.visit = some visit)
      (fresh : visit.announced = false) (plain : search.isShowing = false) :
      search.Tends none { search with visit := some { visit with announced := true } }
  | shown {visit : Visit κ} (visiting : search.visit = some visit)
      (fresh : visit.announced = false) (showing : search.isShowing = true) :
      search.Tends (some (.inspected visit.source .source))
        ({ search with visit := some { visit with announced := true } }.mark visit.source .source)
  | closed {visit : Visit κ} (visiting : search.visit = some visit)
      (announced : visit.announced = true) (empty : visit.checks = []) :
      search.Tends none ({ search with visit := none }.mark visit.source .plain)
  | previewed {visit : Visit κ} {check : Check κ} {checks : List (Check κ)} {target : Cell κ σ}
      (taken : search.Takes visit check checks target) (undecided : target.collapsed = false)
      (showing : search.isShowing = true) (fresh : check.inspected = false) :
      search.Tends (some (.inspected check.neighbour .checked))
        ((search.withChecks visit ({ check with inspected := true } :: checks)).mark
          check.neighbour .checked)
  | passed {visit : Visit κ} {check : Check κ} {checks : List (Check κ)} {target : Cell κ σ}
      (taken : search.Takes visit check checks target)
      (supported : ∀ tile ∈ target.candidates, tile ∈ check.allowed)
      (quiet : target.collapsed = true ∨ search.isShowing = false) :
      search.Tends none (search.withChecks visit checks)
  | unchanged {visit : Visit κ} {check : Check κ} {checks : List (Check κ)} {target : Cell κ σ}
      (taken : search.Takes visit check checks target) (undecided : target.collapsed = false)
      (supported : ∀ tile ∈ target.candidates, tile ∈ check.allowed)
      (showing : search.isShowing = true) (inspected : check.inspected = true) :
      search.Tends (some (.inspected check.neighbour .noChange))
        ((search.withChecks visit checks).mark check.neighbour .noChange)

/-- The changes that a search makes to itself, with the events they are reported as. -/
inductive Moves (search : Search κ σ) : Option (Event κ) → Search κ σ → Prop where
  | tended {event : Option (Event κ)} {after : Search κ σ} (tends : search.Tends event after) :
      search.Moves event after
  | narrowed {visit : Visit κ} {check : Check κ} {checks : List (Check κ)}
      {target cell : Cell κ σ} (taken : search.Takes visit check checks target)
      (undecided : target.collapsed = false)
      (inspected : search.isShowing = true → check.inspected = true)
      (cut : ∃ tile ∈ target.candidates, tile ∉ check.allowed)
      (left : ∃ tile ∈ target.candidates, tile ∈ check.allowed)
      (restricted : target.restrict (target.candidates.inter check.allowed) = .ok cell) :
      search.Moves (some (.updated visit.source check.neighbour))
        ((search.withChecks visit checks).narrowedTo visit.source check.neighbour cell
          (target.candidates.inter check.allowed))
  | settled {id : κ} {cell after : Cell κ σ} {tile drawn : Nat} (selected : search.Selects id cell)
      (chosen : choose search.rules.weighting search.rules.draws search.drawn id
        (cell.candidates.diff (search.triedOn id)).toList = .ok (tile, drawn))
      (observed : cell.observe tile = .ok after) :
      search.Moves (some (.collapsed id tile))
        ({ search.clearMarks with retry := none }.settledOn id after tile
          (((search.triedOn id).grow search.rules.tileCount).insert tile) drawn)
  | undone {marks : Option (Marks κ)} {newer older : List (TrailEntry κ σ)} {made : Decision κ σ}
      (stuck : search.Stuck marks) (forced : Trail.Forced newer)
      (stands : search.trail.newestFirst = newer ++ .decision made :: older) :
      search.Moves (some (.rolledBack made.cell)) (search.undone marks made older)

/-- What a failure leaves as it was. -/
structure Keeps (search after : Search κ σ) : Prop where
  rules : after.rules = search.rules
  position : after.position = search.position
  trail : after.trail = search.trail
  tally : after.tally = search.tally
  drawn : after.drawn = search.drawn

/-- What a move can be. -/
inductive Answers (search : Search κ σ) : Move κ σ → Prop where
  | quiet {after : Search κ σ} (moved : search.Moves none after) : search.Answers (.quiet after)
  | progress {event : Event κ} {after : Search κ σ} (notices : List (Notice κ))
      (moved : search.Moves (some event) after) :
      search.Answers (.report ⟨after, .progress event, notices⟩)
  | done (notices : List (Notice κ)) (idle : search.Idle)
      (none : search.position.entropy.lowest? = none)
      (collapsed : search.position.board.uncollapsed = 0) :
      search.Answers (.report ⟨search, .done, notices⟩)
  | failed {after : Search κ σ} {failure : Failure (SearchError κ σ)} (notices : List (Notice κ))
      (kept : search.Keeps after)
      (refuted : failure = .error .unsatisfiable →
        (∃ marks, search.Stuck marks) ∧ search.trail.decisions = []) :
      search.Answers (.report ⟨after, .failed failure, notices⟩)

variable {search : Search κ σ}

private theorem answers_retreat {marks : Option (Marks κ)} (stuck : search.Stuck marks)
    (visit : Option (Visit κ)) (retry : Option (Retry κ)) (notices : List (Notice κ)) :
    search.Answers (.report ({ search with marks, visit, retry }.retreat notices)) := by
  simp only [retreat]
  cases newest : search.trail.lastDecision? with
  | none =>
    exact .failed _ ⟨rfl, rfl, rfl, rfl, rfl⟩ fun _ =>
      ⟨⟨marks, stuck⟩, Trail.lastDecision?_eq_none newest⟩
  | some index =>
    obtain ⟨newer, made, older, forced, stands, cut⟩ := Trail.cutAt_lastDecision? newest
    simp only [undo, cut]
    exact .progress _ (.undone stuck forced stands)

theorem narrow_eq (search : Search κ σ) (source id : κ) (cell : Cell κ σ) (tiles : Candidates) :
    search.narrow source id cell tiles =
      (cell.restrict tiles).map fun cell => search.narrowedTo source id cell tiles := by
  unfold narrow
  cases cell.restrict tiles <;> rfl

private theorem answers_constrain {visit : Visit κ} {check : Check κ} {checks : List (Check κ)}
    {target : Cell κ σ} (taken : search.Takes visit check checks target)
    (undecided : target.collapsed = false)
    (inspected : search.isShowing = true → check.inspected = true)
    (cut : ∃ tile ∈ target.candidates, tile ∉ check.allowed) :
    search.Answers (.report ((search.withChecks visit checks).constrain visit.source
      check.neighbour target (target.candidates.inter check.allowed))) := by
  unfold constrain
  split
  · rename_i empty
    have unsupported : ∀ tile ∈ target.candidates, tile ∉ check.allowed := fun tile member held =>
      Candidates.count_eq_zero_iff.mp empty tile (Candidates.mem_inter.mpr ⟨member, held⟩)
    exact answers_retreat (.conflict taken unsupported) (some { visit with checks }) search.retry _
  · rename_i nonempty
    obtain ⟨tile, member⟩ := Candidates.exists_mem_of_count_ne_zero nonempty
    have left : ∃ tile ∈ target.candidates, tile ∈ check.allowed :=
      ⟨tile, Candidates.mem_inter.mp member⟩
    have within : ∀ tile ∈ target.candidates.inter check.allowed, tile ∈ target.candidates :=
      fun tile member => (Candidates.mem_inter.mp member).1
    obtain ⟨cell, restricted⟩ := Cell.exists_restrict within
    rw [narrow_eq, restricted]
    exact .progress _ (.narrowed taken undecided inspected cut left restricted)

private theorem answers_examine {visit : Visit κ} {check : Check κ} {checks : List (Check κ)}
    (visiting : search.visit = some visit) (announced : visit.announced = true)
    (listed : visit.checks = check :: checks) :
    search.Answers ((search.withChecks visit checks).examine visit.source check) := by
  have board : (search.withChecks visit checks).position.board = search.position.board := rfl
  unfold examine
  rw [board]
  cases found : search.position.board.get? check.neighbour with
  | none => exact .failed _ ⟨rfl, rfl, rfl, rfl, rfl⟩ (by simp)
  | some target =>
    have taken : search.Takes visit check checks target := ⟨visiting, announced, listed, found⟩
    cases settled : target.tile? with
    | some tile =>
      have members := Cell.tile?_eq_some_iff.mp settled
      have collapsed : target.collapsed = true := by
        cases flag : target.collapsed with
        | true => rfl
        | false => rw [Cell.tile?_eq_none_iff.mpr flag] at settled; cases settled
      simp only [settled]
      by_cases held : tile ∈ check.allowed
      · have supported : ∀ other ∈ target.candidates, other ∈ check.allowed := fun other member =>
          (members other).mp member ▸ held
        rw [if_pos held]
        exact .quiet (.tended (.passed taken supported (.inl collapsed)))
      · have unsupported : ∀ other ∈ target.candidates, other ∉ check.allowed :=
          fun other member => (members other).mp member ▸ held
        rw [if_neg held]
        exact answers_retreat (.conflict taken unsupported) (some { visit with checks })
          search.retry _
    | none =>
      have undecided := Cell.tile?_eq_none_iff.mp settled
      have showing : (search.withChecks visit checks).isShowing = search.isShowing := rfl
      simp only [settled, showing]
      split
      · rename_i preview
        have preview : search.isShowing = true ∧ check.inspected = false := by simpa using preview
        have tends : search.Tends (some (.inspected check.neighbour .checked))
            ((search.withChecks visit ({ check with inspected := true } :: checks)).mark
              check.neighbour .checked) :=
          .previewed taken undecided preview.1 preview.2
        exact .progress _ (.tended tends)
      · rename_i plain
        have inspected : search.isShowing = true → check.inspected = true := by simpa using plain
        split
        · rename_i within
          have supported := Candidates.isSubset_iff.mp within
          split
          · rename_i shown
            exact .progress _ (.tended (.unchanged taken undecided supported shown
              (inspected shown)))
          · rename_i hidden
            have hidden : search.isShowing = false := by simpa using hidden
            exact .quiet (.tended (.passed taken supported (.inr hidden)))
        · rename_i beyond
          exact answers_constrain taken undecided inspected
            (Candidates.exists_mem_of_not_isSubset beyond)

theorem collapse_ok {id : κ} {cell : Cell κ σ} {tried : Candidates} {options : List Nat}
    {tile : Nat} {after : Search κ σ}
    (collapsed : search.collapse id cell tried options = .ok (tile, after)) :
    ∃ drawn settled, choose search.rules.weighting search.rules.draws search.drawn id options =
        .ok (tile, drawn) ∧ cell.observe tile = .ok settled ∧
      after = search.settledOn id settled tile ((tried.grow search.rules.tileCount).insert tile)
        drawn := by
  unfold collapse at collapsed
  cases chosen : choose search.rules.weighting search.rules.draws search.drawn id options with
  | error reason =>
    rw [chosen] at collapsed
    cases collapsed
  | ok picked =>
    obtain ⟨picked, drawn⟩ := picked
    rw [chosen] at collapsed
    cases observed : cell.observe picked with
    | error reason =>
      simp only [bind, Except.bind, observed] at collapsed
      cases collapsed
    | ok settled =>
      simp only [bind, Except.bind, observed] at collapsed
      unfold Candidates.insertBelow at collapsed
      split at collapsed
      · cases collapsed
      · rename_i inserted
        split at inserted
        · cases inserted
          cases collapsed
          exact ⟨drawn, settled, rfl, observed, rfl⟩
        · cases inserted

private theorem answers_select (idle : search.Idle) : search.Answers (.report search.select) := by
  cases lowest : search.position.entropy.lowest? with
  | some id =>
    have board : search.clearMarks.position.board = search.position.board := rfl
    have triedOn : search.clearMarks.triedOn id = search.triedOn id := rfl
    simp only [select, lowest, settle, board, triedOn]
    cases found : search.position.board.get? id with
    | none => exact .failed _ ⟨rfl, rfl, rfl, rfl, rfl⟩ (by simp)
    | some cell =>
      simp only
      split
      · exact .failed _ ⟨rfl, rfl, rfl, rfl, rfl⟩ (by simp)
      · rename_i undecided
        have selected : search.Selects id cell := ⟨idle, lowest, found, by simpa using undecided⟩
        split
        · rename_i empty
          have tried : ∀ tile ∈ cell.candidates, tile ∈ search.triedOn id := by
            intro tile member
            by_cases fresh : tile ∈ search.triedOn id
            · exact fresh
            have listed := Candidates.mem_toList.mpr (Candidates.mem_diff.mpr ⟨member, fresh⟩)
            rw [List.isEmpty_iff.mp empty] at listed
            cases listed
          exact answers_retreat (.spent selected tried) search.visit none _
        · split
          · exact .failed _ ⟨rfl, rfl, rfl, rfl, rfl⟩ (by simp)
          · rename_i tile after collapsed
            obtain ⟨drawn, settled, chosen, observed, rfl⟩ := collapse_ok collapsed
            exact .progress _ (.settled selected chosen observed)
  | none =>
    simp only [select, lowest]
    split
    · exact .failed _ ⟨rfl, rfl, rfl, rfl, rfl⟩ (by simp)
    · rename_i collapsed
      exact .done _ idle lowest (Nat.eq_zero_of_not_pos collapsed)

/-- A move is a change of the search, its end or a failure. -/
theorem answers_move (search : Search κ σ) : search.Answers search.move := by
  unfold move
  split
  · rename_i visit visiting
    split
    · rename_i fresh
      have fresh : visit.announced = false := by simpa using fresh
      simp only [announce]
      split
      · rename_i showing
        exact .progress _ (.tended (.shown visiting fresh showing))
      · rename_i plain
        have plain : search.isShowing = false := by simpa [isShowing] using plain
        exact .quiet (.tended (.announced visiting fresh plain))
    · rename_i announced
      have announced : visit.announced = true := by simpa using announced
      split
      · rename_i check checks listed
        exact answers_examine visiting announced listed
      · rename_i empty
        exact .quiet (.tended (.closed visiting announced empty))
  · rename_i unvisited
    split
    · rename_i id pending queued
      simp only [openVisit]
      cases found : search.position.board.get? id with
      | none => exact .failed _ ⟨rfl, rfl, rfl, rfl, rfl⟩ (by simp)
      | some cell =>
        cases listed : Check.ofAdjacency search.rules.support cell (search.rules.adjacency id) with
        | error reason =>
          simp only [listed]
          exact .failed _ ⟨rfl, rfl, rfl, rfl, rfl⟩ (by simp)
        | ok checks =>
          simp only [listed]
          exact .quiet (.tended (.opened unvisited queued found listed))
    · rename_i drained
      exact answers_select ⟨unvisited, drained⟩

end Search

end Tiling
