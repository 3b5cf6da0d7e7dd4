import Tiling.Proofs.Problem

/-!
Starting a search keeps its contracts. Once all candidates are known to be tiles of the catalog,
trimming looks up no other tile, adds none beyond capacity and only takes candidates away. So a
start comes to a search or to an error of the problem, and never to a fault.
-/

namespace Tiling

variable {κ τ σ π : Type} [Key κ] [Key σ] [Key π]

theorem Catalog.exists_tile {catalog : Catalog τ σ π} {index : Nat} (known : index < catalog.size) :
    ∃ tile, catalog.tile index = .ok tile := by
  have found : catalog.tile? index = some catalog.tiles[index] := List.getElem?_eq_getElem known
  unfold Catalog.tile
  rw [found]
  exact ⟨_, rfl⟩

namespace Problem

private theorem exists_showing_fold {catalog : Catalog τ σ π} {socket : π} {slots : List σ}
    {tiles : List Nat} {set : Candidates} (known : ∀ tile ∈ tiles, tile < catalog.size)
    (room : catalog.size ≤ set.capacity) :
    ∃ result, tiles.foldlM (fun set index => do
      let tile ← catalog.tile index
      if slots.all fun slot => tile.socket? slot = some socket then set.insertBelow index
      else return set) set = .ok result := by
  induction tiles generalizing set with
  | nil => exact ⟨set, rfl⟩
  | cons index rest ih =>
    have below := known index List.mem_cons_self
    have known : ∀ tile ∈ rest, tile < catalog.size := fun tile listed =>
      known tile (List.mem_cons_of_mem index listed)
    obtain ⟨tile, found⟩ := Catalog.exists_tile below
    rw [List.foldlM_cons, found]
    by_cases fits : (slots.all fun slot => tile.socket? slot = some socket) = true
    · have inserted : set.insertBelow index = .ok (set.insert index) :=
        if_pos (Nat.lt_of_lt_of_le below room)
      simp only [bind, Except.bind, fits, if_true, inserted]
      exact ih known (Nat.le_trans room (Nat.le_max_left ..))
    · simp only [bind, Except.bind, fits, if_false, pure, Except.pure, Bool.false_eq_true]
      exact ih known room

variable {catalog : Catalog τ σ π}

theorem exists_showing? (socket : π) (slots : List σ) {candidates : Candidates}
    (known : ∀ tile ∈ candidates, tile < catalog.size) :
    ∃ allowed, showing? catalog socket slots candidates = .ok allowed :=
  exists_showing_fold (fun tile listed => known tile (Candidates.mem_toList.mp listed))
    (Nat.le_refl catalog.size)

omit [Key κ] in
theorem exists_trimmed? (socket : π) (adjacency : List (σ × Neighbour κ)) {cell : Cell κ σ}
    (known : ∀ tile ∈ cell.candidates, tile < catalog.size) :
    ∃ trimmed, trimmed? catalog socket adjacency cell = .ok trimmed := by
  unfold trimmed?
  split
  · exact ⟨none, rfl⟩
  · obtain ⟨allowed, shown⟩ :=
      exists_showing? socket (outward cell adjacency) known
    have within : ∀ tile ∈ allowed, tile ∈ cell.candidates := fun tile member =>
      ((mem_showing? shown tile).mp member).1
    obtain ⟨after, restricted⟩ := Cell.exists_restrict within
    simp only [shown, bind, Except.bind]
    split
    · rw [restricted]
      exact ⟨some after, rfl⟩
    · exact ⟨none, rfl⟩

omit [Key κ] in
theorem exists_trimmedCells (socket : π) (adjacency : κ → List (σ × Neighbour κ))
    {entries : List (κ × Cell κ σ)}
    (known : ∀ entry ∈ entries, ∀ tile ∈ entry.2.candidates, tile < catalog.size) :
    ∃ changed, trimmedCells catalog socket adjacency entries = .ok changed := by
  induction entries with
  | nil => exact ⟨[], rfl⟩
  | cons head rest ih =>
    obtain ⟨trimmed, first⟩ :=
      exists_trimmed? socket (adjacency head.1) (known head List.mem_cons_self)
    obtain ⟨changed, others⟩ := ih fun entry listed =>
      known entry (List.mem_cons_of_mem head listed)
    unfold trimmedCells
    simp only [first, others, bind, Except.bind, pure, Except.pure]
    exact ⟨_, rfl⟩

theorem stray?_eq_none_iff {tileCount : Nat} {board : Board κ σ} :
    stray? tileCount board = none ↔ ∀ id cell, board.get? id = some cell →
      ∀ tile ∈ cell.candidates, tile < tileCount := by
  constructor
  · intro none id cell found tile
    exact lt_of_stray?_eq_none none found
  · intro known
    apply List.findSome?_eq_none_iff.mpr
    rintro ⟨id, cell⟩ listed
    rw [Option.map_eq_none_iff, List.find?_eq_none]
    intro tile member
    have below := known id cell (Board.get?_eq_some_iff.mpr listed) tile
      (Candidates.mem_toList.mp member)
    simpa using below

/-- With all candidates in the catalog, a search starts unless a cell is without candidates. -/
theorem begin_of_known (problem : Problem κ τ σ π) {board : Board κ σ}
    (adjacency : κ → List (σ × Neighbour κ)) (pairing : σ → σ) (boundarySocket : π)
    (known : ∀ id cell, board.get? id = some cell →
      ∀ tile ∈ cell.candidates, tile < problem.catalog.size) :
    (problem.begin board adjacency pairing boundarySocket).outcome =
        .error (.error .unsatisfiable) ∨
      ∃ search, (problem.begin board adjacency pairing boundarySocket).outcome = .ok search := by
  obtain ⟨changed, trimmed⟩ := exists_trimmedCells boundarySocket adjacency fun entry listed =>
    known entry.1 entry.2 (Board.get?_eq_some_iff.mpr listed)
  unfold Problem.begin
  simp only [trimmed]
  split
  · exact .inl rfl
  · exact .inr ⟨_, rfl⟩

/-- No problem faults on starting. -/
theorem start_ne_fault (problem : Problem κ τ σ π) (reason : Fault) :
    problem.start.outcome ≠ .error (.fault reason) := by
  intro failed
  unfold start at failed
  split at failed
  · cases failed
  · cases failed
  · cases failed
  · cases failed
  · rename_i board adjacency pairing boundarySocket _ _ _ _
    split at failed
    · cases failed
    · rename_i none
      rcases problem.begin_of_known adjacency pairing boundarySocket (stray?_eq_none_iff.mp none)
        with unsatisfiable | ⟨search, started⟩
      · cases unsatisfiable.symm.trans failed
      · cases started.symm.trans failed

/-- A problem that starts a search has all settings that it must have. -/
theorem exists_constraints (problem : Problem κ τ σ π) {search : Search κ σ}
    (started : problem.start.outcome = .ok search) :
    ∃ constraints : Constraints κ τ σ π,
      problem = constraints.problem problem.weighting problem.draws problem.showing ∧
        constraints.catalog = problem.catalog := by
  obtain ⟨catalog, board, adjacency, pairing, boundarySocket, weighting, draws, showing⟩ := problem
  unfold start at started
  split at started
  · cases started
  · cases started
  · cases started
  · cases started
  · rename_i board adjacency pairing boundarySocket given listed paired bounded
    cases given
    cases listed
    cases paired
    cases bounded
    exact ⟨⟨catalog, board, adjacency, pairing, boundarySocket⟩, rfl, rfl⟩

end Problem

end Tiling
