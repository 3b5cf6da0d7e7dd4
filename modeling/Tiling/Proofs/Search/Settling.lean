import Tiling.Proofs.Search.Turns

/-!
Settling a cell. When nothing is left to narrow, the selected cell is settled on a candidate not
tried on it yet, and with none left the search turns back.
-/

namespace Tiling

variable {κ σ : Type} [Key κ] [Key σ]

namespace Search

variable {search : Search κ σ}

theorem Selects.move {id : κ} {cell : Cell κ σ} (selected : search.Selects id cell) :
    search.move = .report (search.clearMarks.settle id) := by
  simp only [Search.move, selected.unvisited, selected.drained, select, selected.lowest]

theorem collapse_of_choose_error (search : Search κ σ) {id : κ} {options : List Nat}
    {reason : Fault} (cell : Cell κ σ) (tried : Candidates)
    (failed : choose search.rules.weighting search.rules.draws search.drawn id options =
      .error reason) :
    search.collapse id cell tried options = .error reason := by
  unfold collapse
  rw [failed]
  rfl

theorem exists_collapse (search : Search κ σ) {id : κ} {cell : Cell κ σ} {options : List Nat}
    {tile drawn : Nat} (tried : Candidates)
    (chosen : choose search.rules.weighting search.rules.draws search.drawn id options =
      .ok (tile, drawn))
    (member : tile ∈ cell.candidates) (known : tile < search.rules.tileCount) :
    ∃ after, search.collapse id cell tried options = .ok (tile, after) := by
  obtain ⟨settled, observed⟩ := Cell.exists_observe member
  have below : tile < (tried.grow search.rules.tileCount).capacity :=
    Nat.lt_of_lt_of_le known (Nat.le_max_right ..)
  unfold collapse
  simp only [chosen, observed, Candidates.insertBelow, if_pos below, bind, Except.bind]
  exact ⟨_, rfl⟩

/-- With all its candidates tried, the selected cell leads back to the decision before. -/
theorem Selects.move_of_spent {id : κ} {cell : Cell κ σ} (selected : search.Selects id cell)
    (spent : ∀ tile ∈ cell.candidates, tile ∈ search.triedOn id) :
    search.move =
      .report ({ search.clearMarks with retry := none }.retreat [.optionsSpent id]) := by
  have found : search.clearMarks.position.board.get? id = some cell := selected.found
  have triedOn : search.clearMarks.triedOn id = search.triedOn id := rfl
  have empty : (cell.candidates.diff (search.triedOn id)).toList = [] := by
    apply List.eq_nil_iff_forall_not_mem.mpr
    intro tile listed
    obtain ⟨member, fresh⟩ := Candidates.mem_diff.mp (Candidates.mem_toList.mp listed)
    exact fresh (spent tile member)
  rw [selected.move]
  simp [settle, found, triedOn, selected.undecided, empty]

/-- With a candidate left to try, the selected cell is settled on one, unless weighing fails. -/
theorem Selects.move_of_untried {id : κ} {cell : Cell κ σ} (selected : search.Selects id cell)
    (known : ∀ tile ∈ cell.candidates, tile < search.rules.tileCount)
    (untried : ∃ tile ∈ cell.candidates, tile ∉ search.triedOn id) :
    (∃ after tile notices, search.move = .report ⟨after, .progress (.collapsed id tile), notices⟩) ∨
      ∃ after weigh tile reason, search.rules.weighting = some weigh ∧ tile ∈ cell.candidates ∧
        tile ∉ search.triedOn id ∧ weigh tile id = .error reason ∧
          search.move = .report (.fault after reason []) := by
  have found : search.clearMarks.position.board.get? id = some cell := selected.found
  have triedOn : search.clearMarks.triedOn id = search.triedOn id := rfl
  have members : ∀ tile, tile ∈ (cell.candidates.diff (search.triedOn id)).toList ↔
      tile ∈ cell.candidates ∧ tile ∉ search.triedOn id := fun tile =>
    Candidates.mem_toList.trans Candidates.mem_diff
  have nonempty : (cell.candidates.diff (search.triedOn id)).toList ≠ [] := by
    obtain ⟨tile, untried⟩ := untried
    exact List.ne_nil_of_mem ((members tile).mpr untried)
  rw [selected.move]
  cases chosen : choose search.rules.weighting search.rules.draws search.drawn id
      (cell.candidates.diff (search.triedOn id)).toList with
  | error reason =>
    obtain ⟨weigh, weighting, tile, listed, failed⟩ := exists_of_choose_error nonempty chosen
    obtain ⟨member, fresh⟩ := (members tile).mp listed
    have collapse := collapse_of_choose_error
      { search.clearMarks with retry := none } cell (search.triedOn id) chosen
    refine .inr ⟨{ search.clearMarks with retry := none }, weigh, tile, reason, weighting, member,
      fresh, failed, ?_⟩
    simp [settle, found, triedOn, selected.undecided, nonempty, collapse]
  | ok picked =>
    obtain ⟨tile, drawn⟩ := picked
    obtain ⟨member, -⟩ := (members tile).mp (mem_of_choose chosen)
    obtain ⟨after, collapse⟩ := exists_collapse
      { search.clearMarks with retry := none } (search.triedOn id) chosen member
      (known tile member)
    refine .inl ⟨after, tile, [.collapsed id tile], ?_⟩
    simp [settle, found, triedOn, selected.undecided, nonempty, collapse]

theorem retreat_turn (search : Search κ σ) (notices : List (Notice κ)) :
    (∃ newer made older, Trail.Forced newer ∧
      search.trail.newestFirst = newer ++ .decision made :: older ∧
        (search.retreat notices).turn.Reports (.rolledBack made.cell)) ∨
      search.trail.decisions = [] ∧
        (search.retreat notices).turn.outcome = .error (.error .unsatisfiable) := by
  simp only [retreat]
  cases newest : search.trail.lastDecision? with
  | none => exact .inr ⟨Trail.lastDecision?_eq_none newest, rfl⟩
  | some index =>
    obtain ⟨newer, made, older, forced, stands, cut⟩ := Trail.cutAt_lastDecision? newest
    refine .inl ⟨newer, made, older, forced, stands, ?_⟩
    simp only [undo, cut]
    exact ⟨_, rfl, rfl⟩

end Search

end Tiling
