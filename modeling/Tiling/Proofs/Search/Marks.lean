import Tiling.Proofs.Search.Trail

/-!
What the marks say. As long as no decision was just undone, each mark stands for something that the
search has in hand: a queued cell, the visit under way or its next check. So a mark that a later
visit has left behind says no more than that nothing came of a check.
-/

namespace Tiling

variable {κ σ : Type} [Key κ] [Key σ]

namespace Search

variable {search after : Search κ σ} {event : Option (Event κ)}

/-- The mark of a cell, in a search that shows its work. -/
def markOf? (search : Search κ σ) (id : κ) : Option Mark := search.marks.bind (·.get? id)

theorem markOf?_congr (marks : after.marks = search.marks) : after.markOf? = search.markOf? := by
  unfold markOf?
  rw [marks]

theorem markOf?_mark (showing : search.isShowing = true) (cell id : κ) (mark : Mark) :
    (search.mark cell mark).markOf? id = if cell = id then some mark else search.markOf? id := by
  obtain ⟨marks, shown⟩ := Option.isSome_iff_exists.mp showing
  simp [markOf?, Search.mark, shown]

theorem markOf?_clearMarks (search : Search κ σ) (id : κ) :
    search.clearMarks.markOf? id = (search.markOf? id).map fun _ => .plain := by
  unfold markOf? clearMarks
  cases search.marks <;> simp

theorem plain_of_clearMarks {id : κ} {mark : Mark}
    (held : search.clearMarks.markOf? id = some mark) : mark = .plain := by
  rw [markOf?_clearMarks] at held
  obtain ⟨_, -, rfl⟩ := Option.map_eq_some_iff.mp held
  rfl

/-- The neighbours of the cell are being narrowed. -/
def IsVisiting (search : Search κ σ) (id : κ) : Prop :=
  search.visit.map (·.source) = some id

/-- The next check is about the cell, which is not collapsed, and was shown already. -/
def IsChecking (search : Search κ σ) (id : κ) : Prop :=
  ∃ visit check checks target, search.Takes visit check checks target ∧ check.neighbour = id ∧
    check.inspected = true ∧ target.collapsed = false

/-- What the search has in hand when a cell has a mark. -/
def Warrants (search : Search κ σ) (id : κ) : Mark → Prop
  | .collapsed | .changed => id ∈ search.pending ∨ search.IsVisiting id
  | .source => search.IsVisiting id
  | .checked => search.IsChecking id
  | .conflict => False
  | .noChange | .plain => True

/-- A mark stays warranted as long as its cell stays in hand and is not the one checked. -/
theorem Warrants.mono {id : κ} {mark : Mark} (warrants : search.Warrants id mark)
    (queued : id ∈ search.pending → id ∈ after.pending ∨ after.IsVisiting id)
    (visiting : search.IsVisiting id → after.IsVisiting id) (unchecked : ¬search.IsChecking id) :
    after.Warrants id mark := by
  cases mark with
  | collapsed | changed => exact warrants.elim queued fun held => .inr (visiting held)
  | source => exact visiting warrants
  | checked => exact absurd warrants unchecked
  | conflict => exact warrants
  | noChange | plain => trivial

theorem Takes.unique {visit visit' : Visit κ} {check check' : Check κ}
    {checks checks' : List (Check κ)} {target target' : Cell κ σ}
    (taken : search.Takes visit check checks target)
    (taken' : search.Takes visit' check' checks' target') :
    visit = visit' ∧ check = check' ∧ target = target' := by
  cases taken.visiting.symm.trans taken'.visiting
  cases taken.listed.symm.trans taken'.listed
  cases taken.found.symm.trans taken'.found
  exact ⟨rfl, rfl, rfl⟩

/-- A search that shows its work has a mark for each cell, and what the marks stand for is in hand
unless a decision was just undone. -/
structure Marked (search : Search κ σ) : Prop where
  showing : search.isShowing = true
  cells : ∀ id, (search.markOf? id).isSome = (search.rules.start.board.get? id).isSome
  visited : ∀ id, search.IsVisiting id → (search.rules.start.board.get? id).isSome = true
  warranted : search.retry = none → ∀ id mark, search.markOf? id = some mark →
    search.Warrants id mark

theorem Coherent.isSome_start (coherent : search.Coherent) {id : κ} {cell : Cell κ σ}
    (found : search.position.board.get? id = some cell) :
    (search.rules.start.board.get? id).isSome = true := by
  obtain ⟨given, held, -⟩ := coherent.within.cell id cell found
  rw [held]
  rfl

theorem Coherent.retry_eq_none (coherent : search.Coherent)
    (unselected : ∀ id cell, ¬search.Selects id cell) : search.retry = none := by
  cases waiting : search.retry with
  | none => rfl
  | some retry =>
    obtain ⟨target, selected, -⟩ := coherent.retried retry waiting
    exact absurd selected (unselected retry.cell target)

theorem Coherent.not_retrying (coherent : search.Coherent) (busy : ¬search.Idle) :
    search.retry = none :=
  coherent.retry_eq_none fun _ _ selected => busy selected.toIdle

theorem Marked.isSome_mark (marked : search.Marked) {cell : κ} (mark : Mark)
    (known : (search.rules.start.board.get? cell).isSome = true) (id : κ) :
    ((search.mark cell mark).markOf? id).isSome = (search.rules.start.board.get? id).isSome := by
  rw [markOf?_mark marked.showing]
  split
  · rename_i same
    rw [← same, known]
    rfl
  · exact marked.cells id

theorem isShowing_mark (search : Search κ σ) (cell : κ) (mark : Mark) :
    (search.mark cell mark).isShowing = search.isShowing := by
  simp [isShowing, Search.mark]

/-- Marking a cell of the board keeps the marks warranted, if those of the other cells are. -/
theorem Marked.marking (marked : search.Marked) {cell : κ} {mark : Mark}
    (rules : after.rules = search.rules) (marks : after.marks = (search.mark cell mark).marks)
    (known : (search.rules.start.board.get? cell).isSome = true)
    (visited : ∀ id, after.IsVisiting id → search.IsVisiting id) (fresh : after.Warrants cell mark)
    (others : ∀ id mark, cell ≠ id → search.markOf? id = some mark → after.Warrants id mark) :
    after.Marked := by
  have same : after.markOf? = (search.mark cell mark).markOf? := markOf?_congr marks
  refine ⟨?_, fun id => ?_, fun id held => rules ▸ marked.visited id (visited id held),
    fun _ id other held => ?_⟩
  · rw [isShowing, marks]
    exact (search.isShowing_mark cell mark).trans marked.showing
  · rw [same, rules]
    exact marked.isSome_mark mark known id
  · rw [same, markOf?_mark marked.showing] at held
    split at held
    · rename_i here
      cases held
      exact here ▸ fresh
    · rename_i differ
      exact others id other differ held

theorem Marked.resumed (marked : search.Marked) (running : search.retry = none) {cell : κ}
    {mark : Mark} (rules : after.rules = search.rules)
    (marks : after.marks = (search.mark cell mark).marks)
    (known : (search.rules.start.board.get? cell).isSome = true)
    (source : after.visit.map (·.source) = search.visit.map (·.source))
    (queued : ∀ id ∈ search.pending, id ∈ after.pending)
    (unchecked : ∀ id, search.IsChecking id → id = cell) (fresh : after.Warrants cell mark) :
    after.Marked := by
  have same : after.IsVisiting = search.IsVisiting := by
    unfold IsVisiting
    rw [source]
  refine marked.marking rules marks known (fun id held => same ▸ held) fresh
    fun id mark differ held => ?_
  exact (marked.warranted running id mark held).mono (fun listed => .inl (queued id listed))
    (fun held => same ▸ held) fun checking => differ (unchecked id checking).symm

theorem Takes.source {visit next : Visit κ} {check : Check κ} {checks : List (Check κ)}
    {target : Cell κ σ} (taken : search.Takes visit check checks target)
    (same : next.source = visit.source) :
    (some next).map (·.source) = search.visit.map (·.source) := by
  rw [taken.visiting, Option.map_some, Option.map_some, same]

theorem Marked.tends (marked : search.Marked) (coherent : search.Coherent)
    (tends : search.Tends event after) : after.Marked := by
  have running := coherent.not_retrying tends.not_idle
  cases tends with
  | @opened id pending cell checks unvisited queued found listed =>
    have unvisiting : ∀ other, ¬search.IsVisiting other := by simp [IsVisiting, unvisited]
    refine ⟨marked.showing, marked.cells, fun other held => ?_, fun _ other mark held => ?_⟩
    · exact Option.some.inj held ▸ coherent.isSome_start found
    · refine (marked.warranted running other mark held).mono (fun listed => ?_)
        (fun held => absurd held (unvisiting other)) ?_
      · rcases List.mem_cons.mp (queued ▸ listed) with rfl | later
        · exact .inr rfl
        · exact .inl later
      · rintro ⟨visit, _, _, _, taken, -⟩
        cases unvisited.symm.trans taken.visiting
  | announced visiting fresh plain => cases plain.symm.trans marked.showing
  | @shown visit visiting fresh showing =>
    have source : search.visit.map (·.source) = some visit.source := by rw [visiting]; rfl
    refine marked.resumed running rfl rfl (marked.visited _ source) source.symm (fun _ => id) ?_ rfl
    rintro id ⟨_, _, _, _, taken, -⟩
    cases visiting.symm.trans taken.visiting
    cases fresh.symm.trans taken.announced
  | @closed visit visiting announced empty =>
    have source : search.visit.map (·.source) = some visit.source := by rw [visiting]; rfl
    refine marked.marking rfl rfl (marked.visited _ source) nofun trivial
      fun id mark differ held => ?_
    refine (marked.warranted running id mark held).mono .inl (fun visited => ?_) ?_
    · exact absurd (Option.some.inj (source.symm.trans visited)) differ
    · rintro ⟨_, _, _, _, taken, -⟩
      cases visiting.symm.trans taken.visiting
      cases empty.symm.trans taken.listed
  | @previewed visit check checks target taken undecided showing fresh =>
    refine marked.resumed running rfl rfl (coherent.isSome_start taken.found) (taken.source rfl)
      (fun _ => id) ?_ ⟨_, _, _, target, ⟨rfl, taken.announced, rfl, taken.found⟩, rfl, rfl,
        undecided⟩
    rintro id ⟨_, _, _, _, taken', -, inspected, -⟩
    obtain ⟨-, rfl, -⟩ := taken.unique taken'
    cases fresh.symm.trans inspected
  | @passed visit check checks target taken supported quiet =>
    have source := taken.source (rfl : ({ visit with checks } : Visit κ).source = visit.source)
    refine ⟨marked.showing, marked.cells, fun id held => marked.visited id (source.symm.trans held),
      fun _ id mark held => ?_⟩
    refine (marked.warranted running id mark held).mono .inl source.trans ?_
    rintro ⟨_, _, _, _, taken', -, -, undecided⟩
    obtain ⟨-, -, rfl⟩ := taken.unique taken'
    rcases quiet with collapsed | hidden
    · cases undecided.symm.trans collapsed
    · cases hidden.symm.trans marked.showing
  | unchanged taken undecided supported showing inspected =>
    refine marked.resumed running rfl rfl (coherent.isSome_start taken.found) (taken.source rfl)
      (fun _ => id) ?_ trivial
    rintro id ⟨_, _, _, _, taken', rfl, -⟩
    obtain ⟨-, rfl, -⟩ := taken.unique taken'
    rfl

theorem Marked.clearMarks (marked : search.Marked) : search.clearMarks.Marked := by
  refine ⟨?_, fun id => ?_, marked.visited, fun _ id mark held => ?_⟩
  · have showing := marked.showing
    simpa [isShowing, Search.clearMarks] using showing
  · rw [markOf?_clearMarks, Option.isSome_map]
    exact marked.cells id
  · cases plain_of_clearMarks held
    trivial

/-- Every move keeps the marks warranted, until one turns back. -/
theorem Marked.moves (marked : search.Marked) (coherent : search.Coherent)
    (moved : search.Moves event after) : after.Marked := by
  cases moved with
  | tended tends => exact marked.tends coherent tends
  | narrowed taken undecided inspected cut left restricted =>
    have running := coherent.not_retrying taken.not_idle
    refine marked.resumed running rfl rfl (coherent.isSome_start taken.found) (taken.source rfl)
      (fun id listed => List.mem_append_left _ listed) ?_ (.inl (by simp [narrowedTo]))
    rintro id ⟨_, _, _, _, taken', rfl, -⟩
    obtain ⟨-, rfl, -⟩ := taken.unique taken'
    rfl
  | settled selected chosen observed =>
    refine marked.clearMarks.marking rfl rfl (coherent.isSome_start selected.found)
      (fun _ held => held) (.inl (by simp [settledOn])) fun id mark _ held => ?_
    cases plain_of_clearMarks held
    trivial
  | undone stuck =>
    cases stuck with
    | @conflict _ check _ _ taken =>
      have known := coherent.isSome_start taken.found
      exact ⟨(search.isShowing_mark check.neighbour .conflict).trans marked.showing,
        marked.isSome_mark .conflict known, nofun, nofun⟩
    | spent => exact ⟨marked.clearMarks.showing, marked.clearMarks.cells, nofun, nofun⟩

theorem Marked.reaches (marked : search.Marked) (coherent : search.Coherent) {last : Search κ σ}
    (reaches : search.Reaches last) : last.Marked := by
  induction reaches with
  | start => exact marked
  | move earlier moved ih => exact ih.moves (coherent.reaches earlier) moved

variable {id other : κ}

theorem Marked.source_unique (marked : search.Marked) (running : search.retry = none)
    (first : search.markOf? id = some .source) (second : search.markOf? other = some .source) :
    id = other := by
  have held : search.IsVisiting id := marked.warranted running id _ first
  exact Option.some.inj (held.symm.trans (marked.warranted running other _ second))

theorem Marked.checked_unique (marked : search.Marked) (running : search.retry = none)
    (first : search.markOf? id = some .checked) (second : search.markOf? other = some .checked) :
    id = other := by
  obtain ⟨_, _, _, _, taken, rfl, -⟩ := marked.warranted running id _ first
  obtain ⟨_, _, _, _, taken', rfl, -⟩ := marked.warranted running other _ second
  obtain ⟨-, rfl, -⟩ := taken.unique taken'
  rfl

theorem Marked.ne_conflict (marked : search.Marked) (running : search.retry = none) :
    search.markOf? id ≠ some .conflict :=
  marked.warranted running id .conflict

theorem Marked.of_idle (marked : search.Marked) (running : search.retry = none)
    (idle : search.Idle) {mark : Mark} (held : search.markOf? id = some mark) :
    mark = .plain ∨ mark = .noChange := by
  have unvisiting : ¬search.IsVisiting id := by simp [IsVisiting, idle.unvisited]
  have warrants := marked.warranted running id mark held
  cases mark with
  | plain => exact .inl rfl
  | noChange => exact .inr rfl
  | collapsed | changed =>
    rcases warrants with queued | visiting
    · simp [idle.drained] at queued
    · exact absurd visiting unvisiting
  | source => exact absurd warrants unvisiting
  | checked =>
    obtain ⟨_, _, _, _, taken, -⟩ := warrants
    exact absurd idle taken.not_idle
  | conflict => exact warrants.elim

end Search

variable {τ π : Type} [Key π] {constraints : Constraints κ τ σ π}

theorem Constraints.marks_of_started {weighting : Option (Weighting κ)} {draws : Draws}
    {search : Search κ σ}
    (started : (constraints.problem weighting draws true).start.outcome = .ok search) :
    search.marks = some (search.rules.start.board.cells.mapValues fun _ _ => .plain) := by
  simp only [problem, Problem.start] at started
  split at started
  · cases started
  · unfold Problem.begin at started
    split at started
    · cases started
    · dsimp only at started
      split at started
      · cases started
      · cases started
        rfl

theorem Constraints.marked_of_started {weighting : Option (Weighting κ)} {draws : Draws}
    {search : Search κ σ}
    (started : (constraints.problem weighting draws true).start.outcome = .ok search) :
    search.Marked := by
  have marks := marks_of_started started
  have opens := Starts.opens ⟨weighting, draws, true, started⟩
  have plain : ∀ id, search.markOf? id =
      (search.rules.start.board.get? id).map fun _ => Mark.plain := by
    simp [Search.markOf?, marks, Board.get?]
  refine ⟨by rw [Search.isShowing, marks]; rfl, fun id => ?_, fun id visiting => ?_,
    fun _ id mark held => ?_⟩
  · rw [plain, Option.isSome_map]
  · simp [Search.IsVisiting, opens.visit] at visiting
  · rw [plain] at held
    obtain ⟨_, -, rfl⟩ := Option.map_eq_some_iff.mp held
    trivial

end Tiling
