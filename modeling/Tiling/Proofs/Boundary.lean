import Tiling.Proofs.Starting

/-!
What the boundary takes away. A search starts with just those candidates that meet the boundary,
and with the cells queued that were collapsed or have lost some. Starting again on the board that is
left takes nothing more away.
-/

namespace Tiling

variable {κ τ σ π : Type} [Key κ] [Key σ] [Key π]

namespace Constraints

/-- A tile shows the socket of the boundary on every slot of a cell that faces the outside. -/
def MeetsBoundary (constraints : Constraints κ τ σ π) (id : κ) (cell : Cell κ σ) (tile : Nat) :
    Prop :=
  ∀ slot, (slot, .boundary) ∈ constraints.adjacency id → cell.slots.contains slot = true →
    constraints.catalog.shows tile slot constraints.boundarySocket = true

/-- All candidates of the cells are tiles of the catalog. -/
def Known (constraints : Constraints κ τ σ π) : Prop :=
  ∀ id given, constraints.board.get? id = some given →
    ∀ tile ∈ given.candidates, tile < constraints.catalog.size

variable {constraints : Constraints κ τ σ π} {weighting : Option (Weighting κ)} {draws : Draws}
  {showing : Bool} {first : Search κ σ} {changed : List (κ × Cell κ σ)} {id : κ}
  {given cell : Cell κ σ}

theorem Known.start (known : constraints.Known) (weighting : Option (Weighting κ)) (draws : Draws)
    (showing : Bool) :
    (constraints.problem weighting draws showing).start.outcome = .error (.error .unsatisfiable) ∨
      ∃ search, (constraints.problem weighting draws showing).start.outcome = .ok search := by
  have listed : Problem.stray? constraints.catalog.size constraints.board = none :=
    Problem.stray?_eq_none_iff.mpr known
  have begins := (constraints.problem weighting draws showing).begin_of_known constraints.adjacency
    constraints.pairing constraints.boundarySocket known
  simp only [problem, Problem.start, listed]
  exact begins

theorem Starts.exists_meets (starts : constraints.Starts first)
    (held : constraints.board.get? id = some given) :
    ∃ tile ∈ given.candidates, constraints.MeetsBoundary id given tile := by
  obtain ⟨cell, found, trims⟩ := starts.opens.trimmed.cell id given held
  obtain ⟨tile, member⟩ := starts.viable id cell found
  exact ⟨tile, (trims.candidates tile).mp member⟩

/-- A problem starts no search just if the boundary leaves some cell without candidates. -/
theorem Known.unsatisfiable_iff (known : constraints.Known) (weighting : Option (Weighting κ))
    (draws : Draws) (showing : Bool) :
    (constraints.problem weighting draws showing).start.outcome = .error (.error .unsatisfiable) ↔
      ∃ id given, constraints.board.get? id = some given ∧
        ∀ tile ∈ given.candidates, ¬constraints.MeetsBoundary id given tile := by
  constructor
  · intro failed
    obtain ⟨board, trimmed, id, cell, found, empty⟩ := exists_empty_of_unsatisfiable failed
    obtain ⟨given, held, trims⟩ := trimmed.given found
    refine ⟨id, given, held, fun tile member meets => ?_⟩
    exact empty tile ((trims.candidates tile).mpr ⟨member, meets⟩)
  · rintro ⟨id, given, held, none⟩
    rcases known.start weighting draws showing with failed | ⟨first, started⟩
    · exact failed
    · have starts : constraints.Starts first := ⟨weighting, draws, showing, started⟩
      obtain ⟨tile, candidate, meets⟩ := starts.exists_meets held
      exact absurd meets (none tile candidate)

/-- A search starts just if all candidates are in the catalog and the boundary leaves each cell
one. -/
theorem exists_start_iff :
    (∃ first, (constraints.problem weighting draws showing).start.outcome = .ok first) ↔
      constraints.Known ∧ ∀ id given, constraints.board.get? id = some given →
        ∃ tile ∈ given.candidates, constraints.MeetsBoundary id given tile := by
  constructor
  · rintro ⟨first, started⟩
    have starts : constraints.Starts first := ⟨weighting, draws, showing, started⟩
    exact ⟨starts.opens.known, fun id given => starts.exists_meets⟩
  · rintro ⟨known, left⟩
    rcases known.start weighting draws showing with failed | started
    · obtain ⟨id, given, held, none⟩ :=
        (known.unsatisfiable_iff weighting draws showing).mp failed
      obtain ⟨tile, member, meets⟩ := left id given held
      exact absurd meets (none tile member)
    · exact started

/-- The boundary changes a cell just if one of its candidates does not meet it. -/
theorem mem_changed_iff
    (trimmed : Problem.trimmedCells constraints.catalog constraints.boundarySocket
      constraints.adjacency constraints.board.cells.entries = .ok changed) :
    id ∈ changed.map (·.1) ↔ ∃ given, constraints.board.get? id = some given ∧
      ∃ tile ∈ given.candidates, ¬constraints.MeetsBoundary id given tile := by
  have nodup := constraints.board.cells.nodup_keys
  obtain ⟨sublist, left⟩ := Problem.trims_of_trimmedCells trimmed nodup
  constructor
  · intro listed
    obtain ⟨⟨id, cell⟩, member, rfl⟩ := List.mem_map.mp listed
    obtain ⟨given, held, changes⟩ := Problem.mem_trimmedCells trimmed member
    obtain ⟨allowed, fewer, restricted⟩ := Problem.restricted_of_trimmed? changes
    obtain ⟨-, candidates, -⟩ := Cell.restrict_ok restricted
    have trims : constraints.Trims id given cell := Problem.trims_of_trimmed? changes
    have lost : ¬∀ tile ∈ given.candidates, constraints.MeetsBoundary id given tile := by
      intro all
      have most := Candidates.count_le_of_subset fun tile member =>
        (trims.candidates tile).mpr ⟨member, all tile member⟩
      rw [candidates] at most
      exact absurd fewer (Nat.not_lt.mpr most)
    exact ⟨given, Board.get?_eq_some_iff.mpr held, by simpa using lost⟩
  · rintro ⟨given, found, tile, member, misses⟩
    obtain ⟨cell, trims, place⟩ := left (id, given) (Board.get?_eq_some_iff.mp found)
    rcases place with listed | ⟨rfl, -⟩
    · exact List.mem_map_of_mem listed
    · exact absurd ((trims.candidates tile).mp member).2 misses

theorem Begins.exists_cell (begins : constraints.Begins weighting draws changed first)
    (held : constraints.board.get? id = some given) :
    ∃ cell, first.rules.start.board.get? id = some cell ∧ cell.id = given.id ∧
      constraints.Trims id given cell := by
  obtain ⟨cell, found, trims⟩ := (Problem.trimmed_foldl_put begins.trimmed).cell id given held
  refine ⟨cell, begins.board ▸ found, ?_, trims⟩
  rcases Problem.mem_or_get?_of_foldl_put found with listed | same
  · obtain ⟨target, member, changes⟩ := Problem.mem_trimmedCells begins.trimmed listed
    cases held.symm.trans (Board.get?_eq_some_iff.mpr member)
    obtain ⟨allowed, -, restricted⟩ := Problem.restricted_of_trimmed? changes
    exact Cell.id_of_restrict restricted
  · cases held.symm.trans same
    rfl

/-- The cells that are collapsed as given come first, then the others that lost candidates, both in
ascending order. -/
theorem Begins.pending_eq (begins : constraints.Begins weighting draws changed first) :
    ∃ seeds others, first.pending = seeds ++ others ∧
      (seeds.Pairwise fun id other => compare id other = .lt) ∧
      (others.Pairwise fun id other => compare id other = .lt) ∧
      (∀ id, id ∈ seeds ↔ ∃ given, constraints.board.get? id = some given ∧ given.count = 1) ∧
      ∀ id, id ∈ others ↔ ∃ given, constraints.board.get? id = some given ∧ given.count ≠ 1 ∧
        ∃ tile ∈ given.candidates, ¬constraints.MeetsBoundary id given tile := by
  have ascending := constraints.board.cells.ascending_keys
  have nodup := constraints.board.cells.nodup_keys
  obtain ⟨sublist, -⟩ := Problem.trims_of_trimmedCells begins.trimmed nodup
  have collapsed : ∀ id, id ∈ Problem.seeds constraints.board ↔
      ∃ given, constraints.board.get? id = some given ∧ given.count = 1 := by
    intro id
    simp only [Problem.mem_seeds, Cell.collapsed_eq, decide_eq_true_eq]
    rfl
  refine ⟨_, _, begins.pending.trans (Problem.queue_eq ..),
    ascending.sublist (Problem.seeds_sublist _), (ascending.sublist sublist).filter _, collapsed,
    fun id => ?_⟩
  rw [List.mem_filter, decide_eq_true_eq, mem_changed_iff begins.trimmed, collapsed]
  constructor
  · rintro ⟨⟨given, held, lost⟩, several⟩
    exact ⟨given, held, fun single => several ⟨given, held, single⟩, lost⟩
  · rintro ⟨given, held, several, lost⟩
    refine ⟨⟨given, held, lost⟩, ?_⟩
    rintro ⟨other, same, single⟩
    cases held.symm.trans same
    exact several single

theorem Begins.restarts (begins : constraints.Begins weighting draws changed first)
    (known : constraints.Known) (weighting' : Option (Weighting κ)) (draws' : Draws)
    (showing' : Bool) :
    ∃ again, ({ constraints with board := first.rules.start.board }.problem weighting' draws'
        showing').start.outcome = .ok again ∧
      again.rules.start.board = first.rules.start.board := by
  have trimmed := begins.trims
  have meets : ∀ id cell, first.rules.start.board.get? id = some cell → ∀ tile ∈ cell.candidates,
      constraints.MeetsBoundary id cell tile := by
    intro id cell found tile member slot arc own
    obtain ⟨given, -, trims⟩ := trimmed.given found
    rw [trims.slots] at own
    exact ((trims.candidates tile).mp member).2 slot arc own
  have left : Known { constraints with board := first.rules.start.board } := by
    intro id cell found tile member
    obtain ⟨given, held, trims⟩ := trimmed.given found
    exact known id given held tile ((trims.candidates tile).mp member).1
  rcases left.start weighting' draws' showing' with failed | ⟨again, started⟩
  · obtain ⟨id, cell, found, none⟩ := (left.unsatisfiable_iff weighting' draws' showing').mp failed
    obtain ⟨tile, member⟩ := begins.viable id cell found
    exact absurd (meets id cell found tile member) (none tile member)
  · obtain ⟨changed', begins'⟩ := begins_of_started started
    refine ⟨again, started, ?_⟩
    have unchanged : changed' = [] := by
      apply List.eq_nil_iff_forall_not_mem.mpr
      intro entry listed
      obtain ⟨cell, found, tile, member, misses⟩ :=
        (mem_changed_iff begins'.trimmed).mp (List.mem_map_of_mem listed)
      exact misses (meets entry.1 cell found tile member)
    rw [begins'.board, unchanged]
    rfl

/-- The boundary takes away just the candidates that do not meet it. With all candidates in the
catalog, a search starts unless a cell is left with none. Each cell keeps its name and slots and is
collapsed if one candidate is left. The cells collapsed as given are queued in ascending order, then
the others that lost candidates, so that all collapsed cells are. Starting on the board that is left
changes nothing. -/
theorem boundary_exact (known : constraints.Known) (weighting : Option (Weighting κ))
    (draws : Draws) (showing : Bool) :
    ((constraints.problem weighting draws showing).start.outcome =
        .error (.error .unsatisfiable) ↔
      ∃ id given, constraints.board.get? id = some given ∧
        ∀ tile ∈ given.candidates, ¬constraints.MeetsBoundary id given tile) ∧
    ((∀ id given, constraints.board.get? id = some given →
        ∃ tile ∈ given.candidates, constraints.MeetsBoundary id given tile) →
      ∃ first, (constraints.problem weighting draws showing).start.outcome = .ok first) ∧
    ∀ first, (constraints.problem weighting draws showing).start.outcome = .ok first →
      first.position.board.cells.keys = constraints.board.cells.keys ∧
      (∀ id given, constraints.board.get? id = some given →
        ∃ cell, first.position.board.get? id = some cell ∧ cell.id = given.id ∧
          cell.slots = given.slots ∧ (cell.collapsed = true ↔ cell.count = 1) ∧
          ∀ tile, tile ∈ cell.candidates ↔
            tile ∈ given.candidates ∧ constraints.MeetsBoundary id given tile) ∧
      first.pending.Nodup ∧
      (∃ seeds others, first.pending = seeds ++ others ∧
        (seeds.Pairwise fun id other => compare id other = .lt) ∧
        (others.Pairwise fun id other => compare id other = .lt) ∧
        (∀ id, id ∈ seeds ↔ ∃ given, constraints.board.get? id = some given ∧ given.count = 1) ∧
        ∀ id, id ∈ others ↔ ∃ given, constraints.board.get? id = some given ∧ given.count ≠ 1 ∧
          ∃ tile ∈ given.candidates, ¬constraints.MeetsBoundary id given tile) ∧
      (∀ id cell, first.position.board.get? id = some cell → cell.collapsed = true →
        id ∈ first.pending) ∧
      ∀ weighting' draws' showing', ∃ again,
        ({ constraints with board := first.position.board }.problem weighting' draws'
          showing').start.outcome = .ok again ∧
        again.position.board = first.position.board := by
  refine ⟨known.unsatisfiable_iff weighting draws showing, fun left => ?_, fun first started => ?_⟩
  · exact exists_start_iff.mpr ⟨known, left⟩
  · have starts : constraints.Starts first := ⟨weighting, draws, showing, started⟩
    have opens := starts.opens
    obtain ⟨changed, begins⟩ := begins_of_started started
    rw [opens.position]
    refine ⟨opens.trimmed.keys, fun id given held => ?_, opens.nodup, begins.pending_eq,
      opens.collapsed, fun weighting' draws' showing' => ?_⟩
    · obtain ⟨cell, found, named, trims⟩ := begins.exists_cell held
      have flag : cell.collapsed = true ↔ cell.count = 1 := by
        rw [cell.collapsed_eq]
        exact decide_eq_true_iff
      exact ⟨cell, found, named, trims.slots, flag, trims.candidates⟩
    · obtain ⟨again, started', same⟩ := begins.restarts known weighting' draws' showing'
      have starts' : Starts _ again := ⟨weighting', draws', showing', started'⟩
      refine ⟨again, started', ?_⟩
      rw [starts'.opens.position]
      exact same

/-- The first cell may hold two tiles and faces the outside, the second may hold one. -/
def fenced : Constraints Nat Nat Nat Nat :=
  { differing fun id => if id = 0 then [(0, .boundary)] else [(0, .cell 0)] with
    board := .ofCells [.ofCandidates 0 [0] (.full 2), .ofCandidates 1 [0] (.ofList 2 [1])] }

/-- The first cell loses a tile to the boundary, and is queued after the second. -/
theorem boundary_exact_fenced :
    fenced.Known ∧ ∃ first, (fenced.problem none (fun _ => 0) false).start.outcome = .ok first ∧
      (∃ cell, first.position.board.get? 0 = some cell ∧ 0 ∈ cell.candidates ∧
        1 ∉ cell.candidates) ∧
      ∃ seeds others, first.pending = seeds ++ others ∧ 1 ∈ seeds ∧ 0 ∈ others := by
  have known : fenced.Known := Problem.stray?_eq_none_iff.mp (by decide)
  have given : fenced.board.get? 0 = some (.ofCandidates 0 [0] (.full 2)) := by decide
  have seed : fenced.board.get? 1 = some (.ofCandidates 1 [0] (.ofList 2 [1])) := by decide
  have meets : fenced.MeetsBoundary 0 (.ofCandidates 0 [0] (.full 2)) 0 := by
    intro slot arc own
    have listed : slot = 0 := by simpa [fenced, differing] using arc
    subst listed
    decide
  have misses : ¬fenced.MeetsBoundary 0 (.ofCandidates 0 [0] (.full 2)) 1 := by
    intro meets
    have shown := meets 0 (by decide) (by decide)
    cases shown
  have computed : ((fenced.problem none (fun _ => 0) false).start.outcome.toOption.any
      fun _ => true) = true := by decide +kernel
  obtain ⟨first, started, -⟩ := exists_ok_of_any computed
  obtain ⟨-, -, starting⟩ := boundary_exact known none (fun _ => 0) false
  obtain ⟨-, cells, -, ⟨seeds, others, pending, -, -, seeded, lost⟩, -⟩ := starting first started
  obtain ⟨cell, found, -, -, -, candidates⟩ := cells 0 _ given
  refine ⟨known, first, started, ⟨cell, found, ?_, ?_⟩, seeds, others, pending, ?_, ?_⟩
  · exact (candidates 0).mpr ⟨by decide, meets⟩
  · exact fun member => misses ((candidates 1).mp member).2
  · exact (seeded 1).mpr ⟨_, seed, by decide⟩
  · exact (lost 0).mpr ⟨_, given, by decide, 1, by decide, misses⟩

end Constraints

end Tiling
