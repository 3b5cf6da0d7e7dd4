import Tiling.Proofs.Search.Scores
import Tiling.Proofs.Search.Visits
import Tiling.Proofs.Starting

/-!
Well-formed problems. When every listed neighbour is on the board and every candidate has a plug set
towards it, a search looks up no cell that is missing and no plug set that is, so that it fails only
for want of a solution.
-/

namespace Tiling

variable {κ τ σ π : Type} [Key κ] [Key σ] [Key π]

omit [Key κ] in
theorem Check.exists_ofAdjacency {support : Support σ} {cell : Cell κ σ}
    {adjacency : List (σ × Neighbour κ)}
    (each : ∀ slot other, (slot, .cell other) ∈ adjacency → cell.slots.contains slot = true →
      ∃ allowed, support.acrossAny cell.candidates slot = .ok allowed) :
    ∃ checks, Check.ofAdjacency support cell adjacency = .ok checks := by
  induction adjacency with
  | nil => exact ⟨[], rfl⟩
  | cons arc rest ih =>
    obtain ⟨others, later⟩ := ih fun slot other listed =>
      each slot other (List.mem_cons_of_mem arc listed)
    obtain ⟨slot, other | _⟩ := arc
    · by_cases own : cell.slots.contains slot = true
      · obtain ⟨allowed, supported⟩ := each slot other List.mem_cons_self own
        simp only [ofAdjacency, own, if_true, supported, later]
        exact ⟨_, rfl⟩
      · simp only [ofAdjacency, own, if_false, Bool.false_eq_true]
        exact ⟨others, later⟩
    · exact ⟨others, later⟩

namespace Constraints

/-- All candidates are in the catalog, and every neighbour listed across one of a cell's slots is
on the board, with a plug set towards it on all candidates of the cell. -/
structure WellFormed (constraints : Constraints κ τ σ π) : Prop where
  known : ∀ id cell, constraints.board.get? id = some cell →
    ∀ tile ∈ cell.candidates, tile < constraints.catalog.size
  listed : ∀ id cell, constraints.board.get? id = some cell → ∀ slot other,
    (slot, .cell other) ∈ constraints.adjacency id → cell.slots.contains slot = true →
      (constraints.board.get? other).isSome = true
  plugged : ∀ id cell, constraints.board.get? id = some cell → ∀ slot other,
    (slot, .cell other) ∈ constraints.adjacency id → cell.slots.contains slot = true →
      ∀ tile ∈ cell.candidates, ∀ facing, constraints.catalog.tile? tile = some facing →
        facing.plugs.contains slot = true

/-- Whether the neighbour listed across a slot of a cell is on the board, and all candidates of the
cell have a plug set there. -/
def accommodates (constraints : Constraints κ τ σ π) (cell : Cell κ σ) : σ × Neighbour κ → Bool
  | (slot, .cell other) => (constraints.board.get? other).isSome &&
      cell.candidates.toList.all fun tile =>
        (constraints.catalog.tile? tile).all fun facing => facing.plugs.contains slot
  | (_, .boundary) => true

theorem wellFormed_iff {constraints : Constraints κ τ σ π} :
    constraints.WellFormed ↔ ∀ entry ∈ constraints.board.cells.entries,
      (∀ tile ∈ entry.2.candidates.toList, tile < constraints.catalog.size) ∧
        ∀ arc ∈ constraints.adjacency entry.1, entry.2.slots.contains arc.1 = true →
          constraints.accommodates entry.2 arc = true := by
  constructor
  · rintro wellFormed ⟨id, cell⟩ listed
    have found := Board.get?_eq_some_iff.mpr listed
    refine ⟨fun tile member => ?_, ?_⟩
    · exact wellFormed.known id cell found tile (Candidates.mem_toList.mp member)
    · rintro ⟨slot, other | _⟩ arc own
      · have present := wellFormed.listed id cell found slot other arc own
        have plugged := wellFormed.plugged id cell found slot other arc own
        simpa [accommodates, present, Option.all_eq_true] using plugged
      · rfl
  · intro all
    have all : ∀ id cell, constraints.board.get? id = some cell →
        (∀ tile ∈ cell.candidates.toList, tile < constraints.catalog.size) ∧
          ∀ arc ∈ constraints.adjacency id, cell.slots.contains arc.1 = true →
            constraints.accommodates cell arc = true := fun id cell found =>
      all (id, cell) (Board.get?_eq_some_iff.mp found)
    constructor
    · intro id cell found tile member
      exact (all id cell found).1 tile (Candidates.mem_toList.mpr member)
    · intro id cell found slot other arc own
      have fits := (all id cell found).2 _ arc own
      simp only [accommodates, Bool.and_eq_true] at fits
      exact fits.1
    · intro id cell found slot other arc own
      have fits := (all id cell found).2 _ arc own
      simp only [accommodates, Bool.and_eq_true] at fits
      simpa [Option.all_eq_true] using fits.2

instance (constraints : Constraints κ τ σ π) : Decidable constraints.WellFormed :=
  decidable_of_iff _ wellFormed_iff.symm

theorem WellFormed.exists_across {constraints : Constraints κ τ σ π}
    (wellFormed : constraints.WellFormed) {id other : κ} {cell : Cell κ σ}
    (found : constraints.board.get? id = some cell) {slot : σ}
    (arc : (slot, .cell other) ∈ constraints.adjacency id)
    (own : cell.slots.contains slot = true) {tile : Nat} (member : tile ∈ cell.candidates) :
    ∃ row, (Support.ofCatalog constraints.catalog constraints.pairing).across tile slot =
      .ok row := by
  have known := wellFormed.known id cell found tile member
  have present : constraints.catalog.tile? tile = some constraints.catalog.tiles[tile] :=
    List.getElem?_eq_getElem known
  have plugged := wellFormed.plugged id cell found slot other arc own tile member _ present
  obtain ⟨sockets, plug⟩ := Option.isSome_iff_exists.mp plugged
  rw [Support.across_ofCatalog, present]
  simp only [plug]
  exact ⟨_, rfl⟩

end Constraints

namespace Search

variable {constraints : Constraints κ τ σ π} {first search : Search κ σ}

theorem Reaches.queued (starts : constraints.Starts first) (reaches : first.Reaches search) :
    ∀ id ∈ search.pending, id ∈ constraints.board.cells.keys := by
  induction reaches with
  | start => exact starts.opens.listed
  | @move search _ _ earlier moved ih =>
    have onBoard : ∀ id cell, search.position.board.get? id = some cell →
        id ∈ constraints.board.cells.keys := by
      intro id cell found
      rw [← (earlier.given starts).1]
      exact SortedMap.mem_keys_iff.mpr ⟨cell, found⟩
    intro id queued
    cases moved with
    | tended tends =>
      cases tends with
      | opened _ listed =>
        apply ih
        rw [listed]
        exact List.mem_cons_of_mem _ queued
      | announced | shown | closed | previewed | passed | unchanged => exact ih id queued
    | narrowed taken =>
      rcases List.mem_append.mp queued with queued | queued
      · exact ih id queued
      · rw [List.mem_singleton.mp queued]
        exact onBoard _ _ taken.found
    | settled selected =>
      rcases List.mem_append.mp queued with queued | queued
      · exact ih id queued
      · rw [List.mem_singleton.mp queued]
        exact onBoard _ _ selected.found
    | undone => cases queued

theorem Reaches.checks (starts : constraints.Starts first) (reaches : first.Reaches search) :
    ∀ visit, search.visit = some visit → ∃ given,
      constraints.board.get? visit.source = some given ∧ ∀ check ∈ visit.checks, ∃ slot,
        (slot, .cell check.neighbour) ∈ constraints.adjacency visit.source ∧
          given.slots.contains slot = true := by
  induction reaches with
  | start =>
    intro visit under
    cases starts.opens.visit.symm.trans under
  | @move search after _ earlier moved ih =>
    intro next under
    have visiting : after.visit.isSome = true := by simp [under]
    cases before : search.visit with
    | none =>
      obtain ⟨visit, cell, under', found, checks⟩ := moved.opens before visiting
      cases under.symm.trans under'
      obtain ⟨given, found, slots, -⟩ := (earlier.given starts).2 _ cell found
      refine ⟨given, found, fun check member => ?_⟩
      obtain ⟨slot, arc, -⟩ := checks check member
      have listed := arc.listed
      rw [earlier.rules, starts.opens.adjacency] at listed
      exact ⟨slot, listed, slots ▸ arc.own⟩
    | some visit =>
      obtain ⟨visit', under', source, fewer⟩ := moved.resumes before visiting
      cases under.symm.trans under'
      obtain ⟨given, found, checks⟩ := ih visit before
      rw [source]
      refine ⟨given, found, fun check member => ?_⟩
      obtain ⟨earlier, member, neighbour, -⟩ := fewer check member
      rw [← neighbour]
      exact checks earlier member

/-- In a well-formed problem a queued cell always can be visited. -/
theorem Reaches.exists_checks (starts : constraints.Starts first) (reaches : first.Reaches search)
    (wellFormed : constraints.WellFormed) {id : κ} {cell : Cell κ σ}
    (found : search.position.board.get? id = some cell) :
    ∃ checks, Check.ofAdjacency search.rules.support cell (search.rules.adjacency id) =
      .ok checks := by
  obtain ⟨given, held, slots, candidates⟩ := (reaches.given starts).2 id cell found
  rw [reaches.rules, starts.opens.support, starts.opens.adjacency]
  apply Check.exists_ofAdjacency
  intro slot other arc own
  apply Support.exists_acrossAny
  intro tile member
  exact wellFormed.exists_across held arc (slots ▸ own) (candidates tile member).1

/-- In a well-formed problem a move fails for want of a solution, or because weighing a tile
does. -/
theorem Reaches.fails (starts : constraints.Starts first) (reaches : first.Reaches search)
    (wellFormed : constraints.WellFormed)
    (parts : Entropy.Parts first.rules.draws search.drawn constraints.catalog.size)
    {failure : Failure (SearchError κ σ)} (fails : search.Fails failure) :
    failure = .error .unsatisfiable ∨
      ∃ weigh tile id reason, first.rules.weighting = some weigh ∧
        tile < constraints.catalog.size ∧ weigh tile id = .error reason ∧
          failure = .fault reason := by
  have onBoard : ∀ id ∈ constraints.board.cells.keys, search.position.board.get? id ≠ none := by
    intro id listed missing
    rw [← (reaches.given starts).1] at listed
    obtain ⟨cell, found⟩ := SortedMap.mem_keys_iff.mp listed
    cases missing.symm.trans found
  cases fails with
  | queued unvisited listed missing =>
    have queued := reaches.queued starts _ (listed ▸ List.mem_cons_self)
    exact absurd missing (onBoard _ queued)
  | unsupported unvisited listed found failed =>
    obtain ⟨checks, opened⟩ := reaches.exists_checks starts wellFormed found
    cases opened.symm.trans failed
  | @neighbour visit check checks visiting listed missing =>
    obtain ⟨given, found, checks⟩ := reaches.checks starts visit visiting
    obtain ⟨slot, arc, own⟩ := checks check (listed ▸ List.mem_cons_self)
    have present := wellFormed.listed visit.source given found slot check.neighbour arc own
    obtain ⟨cell, held⟩ := Option.isSome_iff_exists.mp present
    exact absurd missing (onBoard _ (SortedMap.mem_keys_iff.mpr ⟨cell, held⟩))
  | unsatisfiable => exact .inl rfl
  | exhausted idle none left =>
    have := reaches.uncollapsed_eq_zero starts parts none
    omega
  | selected lowest missing =>
    obtain ⟨cell, found, -⟩ := reaches.undecided_of_lowest? starts lowest
    cases missing.symm.trans found
  | collapsed lowest found settled =>
    obtain ⟨cell, found', undecided⟩ := reaches.undecided_of_lowest? starts lowest
    cases found.symm.trans found'
    cases settled.symm.trans undecided
  | weighed selected weighting member failed =>
    obtain ⟨weigh, tile, id, cause⟩ :=
      reaches.weighed_of_fault starts (.weighed selected weighting member failed)
    exact .inr ⟨weigh, tile, id, _, cause.1, cause.2.1, cause.2.2, rfl⟩
  | beyond selected member unknown =>
    obtain ⟨weigh, tile, id, cause⟩ :=
      reaches.weighed_of_fault starts (.beyond selected member unknown)
    exact .inr ⟨weigh, tile, id, _, cause.1, cause.2.1, cause.2.2, rfl⟩

/-- A well-formed problem starts a search unless it has no solution, and no step before the end
fails but for want of a solution or where weighing a tile of the catalog does. The draws must keep
the scores of undecided cells apart from that of a decided one, as those from zero up to one do. -/
theorem fails_only_unsatisfiable (wellFormed : constraints.WellFormed)
    (weighting : Option (Weighting κ)) (draws : Draws) (showing : Bool) :
    (constraints.problem weighting draws showing).start.outcome =
        .error (.error .unsatisfiable) ∨
      ∃ first, (constraints.problem weighting draws showing).start.outcome = .ok first ∧
        ∀ steps, (first.afterSteps steps).finished = false →
          Entropy.Parts draws (first.afterSteps steps).drawn constraints.catalog.size →
          (∃ result, (first.afterSteps steps).step.outcome = .ok result) ∨
          (first.afterSteps steps).step.outcome = .error (.error .unsatisfiable) ∨
          ∃ weigh tile id reason, weighting = some weigh ∧ tile < constraints.catalog.size ∧
            weigh tile id = .error reason ∧
            (first.afterSteps steps).step.outcome = .error (.fault reason) := by
  have known := Problem.stray?_eq_none_iff.mpr wellFormed.known
  have start : (constraints.problem weighting draws showing).start =
      (constraints.problem weighting draws showing).begin constraints.board constraints.adjacency
        constraints.pairing constraints.boundarySocket := by
    simp only [Constraints.problem, Problem.start, known]
  rcases Problem.begin_of_known (constraints.problem weighting draws showing)
      constraints.adjacency constraints.pairing constraints.boundarySocket wellFormed.known with
    unsatisfiable | ⟨first, started⟩
  · left
    rw [start]
    exact unsatisfiable
  · right
    rw [← start] at started
    have starts : constraints.Starts first := ⟨weighting, draws, showing, started⟩
    obtain ⟨rfl, rfl, -⟩ := Constraints.settings_of_started started
    refine ⟨first, started, fun steps unfinished parts => ?_⟩
    cases outcome : (first.afterSteps steps).step.outcome with
    | ok result => exact .inl ⟨result, rfl⟩
    | error failure =>
      obtain ⟨last, quiets, fails⟩ := fails_step unfinished outcome
      have reaches := (reaches_of_unfinished unfinished).quiets quiets
      rw [← quiets.keeps.drawn] at parts
      rcases reaches.fails starts wellFormed parts fails with
        rfl | ⟨weigh, tile, id, reason, weighting, known, failed, rfl⟩
      · exact .inr (.inl rfl)
      · exact .inr (.inr ⟨weigh, tile, id, reason, weighting, known, failed, rfl⟩)

/-- The cells of the contradictory problem have plug sets towards each other, and its search makes
progress up to the step that finds no solution. -/
theorem fails_only_unsatisfiable_contradictory :
    Constraints.contradictory.WellFormed ∧
      (∀ drawn, Entropy.Parts (fun _ => 0) drawn Constraints.contradictory.catalog.size) ∧
      ∃ first, (Constraints.contradictory.problem none (fun _ => 0) false).start.outcome =
          .ok first ∧
        (∀ steps, (first.afterSteps steps).finished = false →
          (∃ result, (first.afterSteps steps).step.outcome = .ok result) ∨
            (first.afterSteps steps).step.outcome = .error (.error .unsatisfiable)) ∧
        (first.afterSteps 12).step.outcome = .error (.error .unsatisfiable) := by
  have wellFormed : Constraints.contradictory.WellFormed := by decide +kernel
  have parts : ∀ drawn, Entropy.Parts (fun _ => 0) drawn Constraints.contradictory.catalog.size :=
    fun _ => (Entropy.rounds_of_unit (fun _ _ => by decide +kernel) (by decide +kernel)).parts
  have computed : ((Constraints.contradictory.problem none (fun _ => 0)
      false).start.outcome.toOption.any fun first =>
        (first.turnWithin 8 12).any Turn.isUnsatisfiable) = true := by decide +kernel
  obtain ⟨first, started, ended⟩ := exists_ok_of_any computed
  refine ⟨wellFormed, parts, first, started, fun steps unfinished => ?_,
    Turn.outcome_of_isUnsatisfiable (of_turnWithin ended)⟩
  rcases fails_only_unsatisfiable wellFormed none (fun _ => 0) false with
    unsatisfiable | ⟨other, started', sound⟩
  · cases started.symm.trans unsatisfiable
  · cases started.symm.trans started'
    rcases sound steps unfinished (parts _) with
      made | unsatisfiable | ⟨weigh, tile, id, reason, weighting, -⟩
    · exact .inl made
    · exact .inr unsatisfiable
    · cases weighting

end Search

end Tiling
