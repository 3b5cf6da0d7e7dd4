import Tiling.Proofs.Search.Tree

/-!
How long a search takes. Between two changes of the decisions that stand, every reported move uses
up candidates, queued cells or checks; each change of the decisions uses up some of those that may
still be made. So there is a rank that every reported move lowers.
-/

namespace Tiling

variable {κ σ : Type} [Key κ] [Key σ]

namespace SortedMap

variable {α : Type}

theorem sum_modifyEntry (weigh : α → Nat) {key : κ} {old : α} {entries : List (κ × α)}
    (found : lookup key entries = some old) (change : α → α) :
    ((modifyEntry key change entries).map fun entry => weigh entry.2).sum + weigh old =
      (entries.map fun entry => weigh entry.2).sum + weigh (change old) := by
  induction entries with
  | nil => cases found
  | cons head rest ih =>
    obtain ⟨other, value⟩ := head
    unfold lookup at found
    unfold modifyEntry
    split at found
    · rename_i hit
      cases found
      rw [if_pos hit]
      simp only [List.map_cons, List.sum_cons]
      omega
    · rename_i miss
      rw [if_neg miss]
      simp only [List.map_cons, List.sum_cons]
      have := ih found
      omega

end SortedMap

namespace Board

/-- How many candidates all cells have together. -/
def volume (board : Board κ σ) : Nat := (board.cells.entries.map fun entry => entry.2.count).sum

theorem volume_put {board : Board κ σ} {id : κ} {target : Cell κ σ}
    (found : board.get? id = some target) (cell : Cell κ σ) :
    (board.put id cell).volume + target.count = board.volume + cell.count :=
  SortedMap.sum_modifyEntry Cell.count found fun _ => cell

theorem volume_put_lt {board : Board κ σ} {id : κ} {target cell : Cell κ σ} {allowed : Candidates}
    (found : board.get? id = some target) (cut : ∃ tile ∈ target.candidates, tile ∉ allowed)
    (restricted : target.restrict (target.candidates.inter allowed) = .ok cell) :
    (board.put id cell).volume < board.volume := by
  obtain ⟨tile, member, unsupported⟩ := cut
  obtain ⟨within, candidates, -⟩ := Cell.restrict_ok restricted
  have fewer : cell.count < target.count := by
    rw [Cell.count, candidates]
    refine Candidates.count_lt_of_subset within (fun held => ?_) member
    exact unsupported (Candidates.mem_inter.mp held).2
  have volume := volume_put found cell
  omega

theorem volume_le {board : Board κ σ} {tiles : Nat}
    (few : ∀ id cell, board.get? id = some cell → cell.count ≤ tiles) :
    board.volume ≤ board.size * tiles := by
  have few : ∀ entry ∈ board.cells.entries, entry.2.count ≤ tiles := fun entry listed =>
    few entry.1 entry.2 (get?_eq_some_iff.mpr listed)
  unfold volume size SortedMap.size
  generalize board.cells.entries = entries at few
  induction entries with
  | nil => exact Nat.zero_le _
  | cons head rest ih =>
    have first := few head List.mem_cons_self
    have others := ih fun entry listed => few entry (List.mem_cons_of_mem head listed)
    rw [List.map_cons, List.sum_cons, List.length_cons, Nat.succ_mul]
    omega

end Board

namespace Rules

/-- The most neighbours listed for a cell. -/
def degree (rules : Rules κ σ) : Nat :=
  (rules.start.board.cells.keys.map fun id => (rules.adjacency id).length).foldl max 0

private theorem le_foldl_max (numbers : List Nat) (least : Nat) :
    least ≤ numbers.foldl max least ∧ ∀ number ∈ numbers, number ≤ numbers.foldl max least := by
  induction numbers generalizing least with
  | nil => simp
  | cons head rest ih =>
    obtain ⟨above, members⟩ := ih (max least head)
    rw [List.foldl_cons]
    refine ⟨by omega, fun number listed => ?_⟩
    rcases List.mem_cons.mp listed with rfl | listed
    · omega
    · exact members number listed

theorem length_adjacency_le {rules : Rules κ σ} {id : κ}
    (listed : id ∈ rules.start.board.cells.keys) :
    (rules.adjacency id).length ≤ rules.degree :=
  (le_foldl_max _ 0).2 _ (List.mem_map_of_mem listed)

/-- A bound on the reported moves between two changes of the decisions. -/
def phases (rules : Rules κ σ) : Nat :=
  rules.cells * rules.tileCount * (2 * rules.degree + 2) +
    (rules.cells + 1) * (2 * rules.degree + 1) + 1

end Rules

/-- The reported moves that a check may lead to. -/
def Check.moves (check : Check κ) : Nat := if check.inspected then 1 else 2

omit [Key κ] in
theorem Check.moves_pos (check : Check κ) : 0 < check.moves := by
  unfold Check.moves
  split <;> omega

/-- The reported moves that a visit may still lead to, apart from new visits. -/
def Visit.moves (visit : Visit κ) : Nat :=
  (if visit.announced then 0 else 1) + (visit.checks.map Check.moves).sum

omit [Key κ] in
theorem Visit.moves_le (visit : Visit κ) : visit.moves ≤ 2 * visit.checks.length + 1 := by
  have checks : (visit.checks.map Check.moves).sum ≤ 2 * visit.checks.length := by
    induction visit.checks with
    | nil => simp
    | cons check rest ih =>
      have single : check.moves ≤ 2 := by
        unfold Check.moves
        split <;> omega
      simp only [List.map_cons, List.sum_cons, List.length_cons]
      omega
  unfold Visit.moves
  split <;> omega

/-- The reported moves that the visit under way may still lead to. -/
def Visit.movesOf : Option (Visit κ) → Nat
  | none => 0
  | some visit => visit.moves

namespace Search

variable {search after : Search κ σ} {event : Option (Event κ)}

/-- A bound on the reported moves before the decisions change. -/
def phase (search : Search κ σ) : Nat :=
  search.position.board.volume * (2 * search.rules.degree + 2) +
    search.pending.length * (2 * search.rules.degree + 1) + Visit.movesOf search.visit

/-- What the changes of decisions lower: the decisions still to be made count twice, so that making
one and undoing it both lower it. -/
def order (search : Search κ σ) : Nat := 2 * search.ahead + search.trail.level

/-- A bound on the reported moves of a search. -/
def rank (search : Search κ σ) : Nat := search.order * search.rules.phases + search.phase

/-- How much a move counts. -/
def cost (event : Option (Event κ)) : Nat := if event.isSome then 1 else 0

private theorem Takes.moves {visit : Visit κ} {check : Check κ} {checks : List (Check κ)}
    {target : Cell κ σ} (taken : search.Takes visit check checks target) :
    Visit.movesOf search.visit = check.moves + (checks.map Check.moves).sum := by
  simp [taken.visiting, Visit.movesOf, Visit.moves, taken.announced, taken.listed]

private theorem Takes.moves_withChecks {visit : Visit κ} {check : Check κ}
    {checks : List (Check κ)} {target : Cell κ σ}
    (taken : search.Takes visit check checks target) (left : List (Check κ)) :
    Visit.movesOf (search.withChecks visit left).visit = (left.map Check.moves).sum := by
  simp [withChecks, Visit.movesOf, Visit.moves, taken.announced]

private theorem Keeps.phase (kept : search.Keeps after) (pending : after.pending = search.pending)
    (fewer : Visit.movesOf after.visit + cost event ≤ Visit.movesOf search.visit) :
    after.phase + cost event ≤ search.phase := by
  unfold Search.phase
  rw [kept.position, kept.rules, pending]
  omega

theorem Tends.phase (tends : search.Tends event after) (coherent : search.Coherent) :
    after.phase + cost event ≤ search.phase := by
  have kept := tends.keeps
  cases tends with
  | @opened id pending cell checks unvisited queued found listed =>
    have onBoard : id ∈ search.rules.start.board.cells.keys :=
      coherent.within.keys ▸ SortedMap.mem_keys_iff.mpr ⟨cell, found⟩
    have fewChecks := Check.length_ofAdjacency_le listed
    have fewNeighbours := Rules.length_adjacency_le onBoard
    have bound : ({ source := id, checks } : Visit κ).moves ≤ 2 * checks.length + 1 :=
      Visit.moves_le _
    unfold Search.phase
    rw [unvisited, queued, List.length_cons, Nat.add_one_mul pending.length]
    simp only [Visit.movesOf, cost, Option.isSome_none, Bool.false_eq_true, if_false]
    omega
  | announced visiting fresh =>
    refine kept.phase rfl ?_
    simp [visiting, Visit.movesOf, Visit.moves, fresh, cost]
  | shown visiting fresh =>
    refine kept.phase rfl ?_
    simp [visiting, Visit.movesOf, Visit.moves, fresh, cost, mark, Nat.add_comm]
  | closed visiting announced empty =>
    refine kept.phase rfl ?_
    simp [visiting, Visit.movesOf, cost, mark]
  | @previewed visit check checks target taken undecided showing fresh =>
    have counted : check.moves = 2 := by simp [Check.moves, fresh]
    refine kept.phase rfl ?_
    change Visit.movesOf
      (search.withChecks visit ({ check with inspected := true } :: checks)).visit + 1 ≤ _
    rw [taken.moves, taken.moves_withChecks, List.map_cons, List.sum_cons, counted, Check.moves,
      if_pos rfl]
    omega
  | @passed visit check checks target taken =>
    refine kept.phase rfl ?_
    rw [taken.moves, taken.moves_withChecks, cost]
    exact Nat.le_add_left _ _
  | @unchanged visit check checks target taken =>
    have counted := Check.moves_pos check
    refine kept.phase rfl ?_
    change Visit.movesOf (search.withChecks visit checks).visit + 1 ≤ _
    rw [taken.moves, taken.moves_withChecks]
    omega

/-- Narrowing uses up candidates, at least as many as it queues cells. -/
theorem phase_narrowedTo {visit : Visit κ} {check : Check κ} {checks : List (Check κ)}
    {target cell : Cell κ σ} (taken : search.Takes visit check checks target)
    (cut : ∃ tile ∈ target.candidates, tile ∉ check.allowed)
    (restricted : target.restrict (target.candidates.inter check.allowed) = .ok cell) :
    ((search.withChecks visit checks).narrowedTo visit.source check.neighbour cell
      (target.candidates.inter check.allowed)).phase + 1 ≤ search.phase := by
  have smaller : (search.position.board.put check.neighbour cell).volume + 1 ≤
      search.position.board.volume := Board.volume_put_lt taken.found cut restricted
  have counted := Check.moves_pos check
  have product := Nat.mul_le_mul_right (2 * search.rules.degree + 2) smaller
  rw [Nat.add_one_mul] at product
  have moves := taken.moves
  change (search.position.board.put check.neighbour cell).volume * (2 * search.rules.degree + 2) +
    (search.pending ++ [check.neighbour]).length * (2 * search.rules.degree + 1) +
      Visit.movesOf (search.withChecks visit checks).visit + 1 ≤ _
  rw [taken.moves_withChecks, Search.phase, moves, List.length_append, List.length_singleton,
    Nat.add_one_mul search.pending.length]
  omega

/-- With no visit under way and no more cells queued than there are, a phase is within its
bound. -/
theorem phase_lt (few : search.position.board.volume ≤ search.rules.cells * search.rules.tileCount)
    (queued : search.pending.length ≤ search.rules.cells + 1) (unvisited : search.visit = none) :
    search.phase < search.rules.phases := by
  have volume := Nat.mul_le_mul_right (2 * search.rules.degree + 2) few
  have pending := Nat.mul_le_mul_right (2 * search.rules.degree + 1) queued
  rw [Search.phase, Rules.phases, unvisited, Visit.movesOf]
  omega

/-- A lower order lowers the rank, whatever is then left to narrow. -/
theorem rank_lt_of_order_lt (rules : after.rules = search.rules)
    (order : after.order + 1 ≤ search.order) (phase : after.phase < search.rules.phases) :
    after.rank + 1 ≤ search.rank := by
  have product := Nat.mul_le_mul_right search.rules.phases order
  rw [Nat.add_one_mul] at product
  rw [rank, rank, rules]
  omega

theorem order_narrowedTo (source id : κ) (cell : Cell κ σ) (tiles : Candidates) :
    (search.narrowedTo source id cell tiles).order = search.order := by
  simp only [order, ahead, unopened, narrowedTo, mark, Trail.level_push_narrowing]
  rfl

theorem order_undone {marks : Option (Marks κ)} {newer older : List (TrailEntry κ σ)}
    {made : Decision κ σ} (forced : Trail.Forced newer)
    (stands : search.trail.newestFirst = newer ++ .decision made :: older) :
    (search.undone marks made older).order + 1 ≤ search.order := by
  have ahead : (search.undone marks made older).ahead ≤ search.ahead := ahead_undone forced stands
  have level : search.trail.level = (search.undone marks made older).trail.level + 1 := by
    have whole : search.trail = ⟨newer ++ .decision made :: older⟩ := congrArg Trail.mk stands
    rw [whole]
    exact forced.level made older
  rw [order, order, level]
  omega

section Reached

variable {τ π : Type} [Key π] {constraints : Constraints κ τ σ π} {first : Search κ σ}

theorem Reaches.lt_size (starts : constraints.Starts first) (reaches : first.Reaches search)
    {id : κ} {cell : Cell κ σ} (found : search.position.board.get? id = some cell) :
    ∀ tile ∈ cell.candidates, tile < constraints.catalog.size := by
  intro tile member
  obtain ⟨given, held, -, candidates⟩ := (reaches.given starts).2 id cell found
  exact starts.opens.known id given held tile (candidates tile member).1

theorem Reaches.known (starts : constraints.Starts first) (reaches : first.Reaches search)
    {id : κ} {cell : Cell κ σ} (found : search.position.board.get? id = some cell) :
    ∀ tile ∈ cell.candidates, tile < search.rules.tileCount := by
  rw [reaches.rules, starts.opens.tileCount]
  exact reaches.lt_size starts found

theorem Reaches.volume_le (starts : constraints.Starts first) (reaches : first.Reaches search) :
    search.position.board.volume ≤ search.rules.cells * search.rules.tileCount := by
  have size : search.position.board.size = search.rules.cells :=
    Board.size_eq_of_keys_eq (reaches.coherent starts).within.keys
  rw [← size]
  apply Board.volume_le
  intro id cell found
  exact Candidates.count_le_of_lt (reaches.known starts found)

/-- No move raises the rank, and a reported one lowers it. -/
theorem Reaches.rank (starts : constraints.Starts first) (reaches : first.Reaches search)
    (moved : search.Moves event after) : after.rank + cost event ≤ search.rank := by
  have coherent := reaches.coherent starts
  have volume := (reaches.move moved).volume_le starts
  cases moved with
  | tended tends =>
    have kept := tends.keeps
    have phase := tends.phase coherent
    have order : after.order = search.order := by
      rw [order, order, ahead, ahead, unopened, unopened, kept.trail, kept.rules, tends.retry]
    rw [Search.rank, Search.rank, order, kept.rules]
    omega
  | narrowed taken undecided inspected cut left restricted =>
    have phase := phase_narrowedTo taken cut restricted
    rw [Search.rank, order_narrowedTo]
    exact Nat.add_le_add_left phase _
  | @settled id cell after tile drawn selected chosen observed =>
    have fresh := not_mem_triedOn_of_choose chosen
    have ahead := coherent.ahead_settled selected (reaches.known starts selected.found) fresh
      observed drawn
    refine rank_lt_of_order_lt rfl ?_ (phase_lt volume ?_ selected.unvisited)
    · have level : Trail.level (Search.trail ({ search.clearMarks with retry := none }.settledOn id
          after tile (((search.triedOn id).grow search.rules.tileCount).insert tile) drawn)) =
          search.trail.level + 1 := Trail.level_decision _ _
      rw [order, order, level]
      omega
    · change (search.pending ++ [id]).length ≤ search.rules.cells + 1
      simp [selected.drained]
  | undone stuck forced stands =>
    exact rank_lt_of_order_lt rfl (order_undone forced stands)
      (phase_lt volume (Nat.zero_le _) rfl)

theorem Quiets.rank {last : Search κ σ} (quiets : search.Quiets last)
    (starts : constraints.Starts first) (reaches : first.Reaches search) :
    last.rank ≤ search.rank := by
  induction quiets with
  | none => exact Nat.le_refl _
  | move tends _ ih =>
    have lower := reaches.rank starts (.tended tends)
    exact Nat.le_trans (ih (reaches.move (.tended tends))) lower

end Reached

end Search

end Tiling
