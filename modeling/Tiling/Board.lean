import Tiling.Candidates
import Tiling.Catalog

/-!
Boards: the cells of a problem with the tiles each may still hold. A cell is collapsed once a
single candidate is left, and observed when that came about by a choice. Cells change only
by settling on a candidate or by narrowing, and both check what they are given.
-/

namespace Tiling

/-- A place on the board. -/
structure Cell (κ σ : Type) [Key σ] where
  id : κ
  /-- The slots on which the cell meets its neighbours. -/
  slots : SortedSet σ
  candidates : Candidates
  collapsed : Bool
  observed : Bool
  collapsed_eq : collapsed = decide (candidates.count = 1)
deriving DecidableEq

namespace Cell

variable {κ σ : Type} [Key σ]

/-- A cell nobody has looked at yet. -/
def ofCandidates (id : κ) (slots : List σ) (candidates : Candidates) : Cell κ σ :=
  { id, slots := .ofList slots, candidates, collapsed := candidates.count = 1, observed := false
    collapsed_eq := rfl }

/-- How many candidates are left. -/
def count (cell : Cell κ σ) : Nat := cell.candidates.count

/-- The tile of a collapsed cell. -/
def tile? (cell : Cell κ σ) : Option Nat :=
  if cell.collapsed then cell.candidates.first? else none

/-- The cell settled on one of its candidates. -/
def observe (cell : Cell κ σ) (tile : Nat) : Except Fault (Cell κ σ) :=
  if tile ∈ cell.candidates then
    match inserted : (Candidates.empty cell.candidates.capacity).insertBelow tile with
    | .ok candidates =>
      have single : candidates.count = 1 :=
        Candidates.count_eq_one_iff.mpr ⟨tile, Candidates.mem_of_insertBelow_empty inserted⟩
      .ok { cell with candidates, collapsed := true, observed := true
                      collapsed_eq := by simp [single] }
    | .error reason => .error reason
  else .error .notACandidate

/-- The cell left with some of its candidates. -/
def restrict (cell : Cell κ σ) (tiles : Candidates) : Except Fault (Cell κ σ) :=
  if tiles.isSubset cell.candidates then
    .ok { cell with candidates := tiles, collapsed := tiles.count = 1, observed := false
                    collapsed_eq := rfl }
  else .error .notNarrower

theorem tile?_eq_some_iff {cell : Cell κ σ} {tile : Nat} :
    cell.tile? = some tile ↔ ∀ other, other ∈ cell.candidates ↔ other = tile := by
  rw [tile?, cell.collapsed_eq]
  constructor
  · intro found
    split at found
    · rename_i single
      obtain ⟨only, members⟩ := Candidates.count_eq_one_iff.mp (of_decide_eq_true single)
      have member := Candidates.mem_toList.mp (List.mem_of_head? found)
      exact (members tile).mp member ▸ members
    · cases found
  · intro members
    have single := Candidates.count_eq_one_iff.mpr ⟨tile, members⟩
    obtain ⟨only, listed⟩ := List.length_eq_one_iff.mp single
    have same : only = tile := (members only).mp (Candidates.mem_toList.mp (by simp [listed]))
    simp [single, Candidates.first?, listed, same]

theorem tile?_eq_none_iff {cell : Cell κ σ} : cell.tile? = none ↔ cell.collapsed = false := by
  rw [tile?]
  cases flag : cell.collapsed with
  | false => simp
  | true =>
    have single : cell.candidates.count = 1 := of_decide_eq_true (cell.collapsed_eq.symm.trans flag)
    obtain ⟨only, listed⟩ := List.length_eq_one_iff.mp single
    simp [Candidates.first?, listed]

theorem tile?_of_mem {cell : Cell κ σ} {tile : Nat} (collapsed : cell.collapsed = true)
    (member : tile ∈ cell.candidates) : cell.tile? = some tile := by
  cases settled : cell.tile? with
  | none => simp [tile?_eq_none_iff.mp settled] at collapsed
  | some only => rw [(tile?_eq_some_iff.mp settled tile).mp member]

/-- Settling a cell leaves the one tile, which must have been a candidate. -/
theorem observe_ok {cell after : Cell κ σ} {tile : Nat} (observed : cell.observe tile = .ok after) :
    tile ∈ cell.candidates ∧ (∀ other, other ∈ after.candidates ↔ other = tile) ∧
      after.slots = cell.slots ∧ after.collapsed = true := by
  unfold observe at observed
  split at observed
  · rename_i member
    split at observed
    · rename_i candidates inserted
      cases observed
      exact ⟨member, Candidates.mem_of_insertBelow_empty inserted, rfl, rfl⟩
    · cases observed
  · cases observed

theorem exists_observe {cell : Cell κ σ} {tile : Nat} (member : tile ∈ cell.candidates) :
    ∃ after, cell.observe tile = .ok after := by
  have below : tile < (Candidates.empty cell.candidates.capacity).capacity :=
    cell.candidates.lt_of_testBit tile member
  unfold observe
  rw [if_pos member]
  split
  · exact ⟨_, rfl⟩
  · rename_i reason failed
    rw [Candidates.insertBelow, if_pos below] at failed
    cases failed

theorem restrict_ok {cell after : Cell κ σ} {tiles : Candidates}
    (restricted : cell.restrict tiles = .ok after) :
    (∀ tile ∈ tiles, tile ∈ cell.candidates) ∧ after.candidates = tiles ∧
      after.slots = cell.slots := by
  unfold restrict at restricted
  split at restricted
  · rename_i within
    cases restricted
    exact ⟨Candidates.isSubset_iff.mp within, rfl, rfl⟩
  · cases restricted

theorem exists_restrict {cell : Cell κ σ} {tiles : Candidates}
    (within : ∀ tile ∈ tiles, tile ∈ cell.candidates) :
    ∃ after, cell.restrict tiles = .ok after := by
  rw [restrict, if_pos (Candidates.isSubset_iff.mpr within)]
  exact ⟨_, rfl⟩

end Cell

/-- The cells of a problem by name. -/
structure Board (κ σ : Type) [Key κ] [Key σ] where
  cells : SortedMap κ (Cell κ σ)
deriving DecidableEq

namespace Board

variable {κ τ σ π : Type} [Key κ] [Key σ] [Key π]

/-- A board of the given cells, the last one of each name. -/
def ofCells (cells : List (Cell κ σ)) : Board κ σ :=
  ⟨.ofList (cells.map fun cell => (cell.id, cell))⟩

def size (board : Board κ σ) : Nat := board.cells.size

def get? (board : Board κ σ) (id : κ) : Option (Cell κ σ) := board.cells.get? id

/-- The cell of a name, which must be on the board. -/
def get (board : Board κ σ) (id : κ) : Except Fault (Cell κ σ) :=
  match board.get? id with
  | some cell => .ok cell
  | none => .error .missingKey

/-- Puts a cell in the place of the one with its name. -/
def put (board : Board κ σ) (id : κ) (cell : Cell κ σ) : Board κ σ :=
  ⟨board.cells.modify id fun _ => cell⟩

@[simp] theorem get?_put (board : Board κ σ) (id wanted : κ) (cell : Cell κ σ) :
    (board.put id cell).get? wanted =
      if id = wanted then (board.get? wanted).map fun _ => cell else board.get? wanted :=
  SortedMap.get?_modify board.cells id wanted fun _ => cell

@[simp] theorem keys_put (board : Board κ σ) (id : κ) (cell : Cell κ σ) :
    (board.put id cell).cells.keys = board.cells.keys :=
  SortedMap.keys_modify board.cells id fun _ => cell

theorem get?_eq_some_iff {board : Board κ σ} {id : κ} {cell : Cell κ σ} :
    board.get? id = some cell ↔ (id, cell) ∈ board.cells.entries :=
  SortedMap.get?_eq_some_iff

def isCollapsed (board : Board κ σ) : Bool := board.cells.values.all (·.collapsed)

/-- How many cells are not collapsed yet. -/
def uncollapsed (board : Board κ σ) : Nat := board.cells.values.countP (!·.collapsed)

/-- How many cells are collapsed. -/
def collapsed (board : Board κ σ) : Nat := board.size - board.uncollapsed

/-- The tiles of the collapsed cells, in cell order. -/
def assignment (board : Board κ σ) : List (κ × Nat) :=
  board.cells.entries.filterMap fun (id, cell) => cell.tile?.map fun tile => (id, tile)

/-- The names of the tiles of the collapsed cells, in cell order. -/
def resolve (board : Board κ σ) (catalog : Catalog τ σ π) : Except Fault (List (κ × τ)) :=
  board.assignment.mapM fun (id, tile) => (catalog.idOf tile).map fun name => (id, name)

end Board

end Tiling
