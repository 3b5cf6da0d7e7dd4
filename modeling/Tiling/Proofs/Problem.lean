import Tiling.Proofs.Solution

/-!
How a search starts. Trimming takes from each cell just the candidates that do not meet the
boundary, so that every solution lies within the trimmed board, and each cell that is collapsed
on it is queued.
-/

namespace Tiling

variable {κ τ σ π : Type} [Key κ] [Key σ] [Key π]

/-- A cell is left with those of its candidates that show the boundary's socket on every slot
facing the outside. -/
structure Constraints.Trims (constraints : Constraints κ τ σ π) (id : κ) (given cell : Cell κ σ) :
    Prop where
  slots : cell.slots = given.slots
  candidates : ∀ tile, tile ∈ cell.candidates ↔ tile ∈ given.candidates ∧
    ∀ slot, (slot, .boundary) ∈ constraints.adjacency id → given.slots.contains slot = true →
      constraints.catalog.shows tile slot constraints.boundarySocket = true

/-- The cells of a board are left with those of their candidates that meet the boundary. -/
structure Constraints.Trimmed (constraints : Constraints κ τ σ π) (board : Board κ σ) : Prop where
  keys : board.cells.keys = constraints.board.cells.keys
  cell : ∀ id given, constraints.board.get? id = some given →
    ∃ cell, board.get? id = some cell ∧ constraints.Trims id given cell

namespace Problem

omit [Key κ] in
theorem mem_outward {cell : Cell κ σ} {adjacency : List (σ × Neighbour κ)} {slot : σ} :
    slot ∈ outward cell adjacency ↔
      (slot, .boundary) ∈ adjacency ∧ cell.slots.contains slot = true := by
  simp only [outward, List.mem_filterMap]
  constructor
  · rintro ⟨⟨own, _ | _⟩, member, kept⟩
    · cases kept
    · simp only [Option.ite_none_right_eq_some, Option.some.injEq] at kept
      obtain ⟨held, rfl⟩ := kept
      exact ⟨member, held⟩
  · rintro ⟨member, held⟩
    exact ⟨_, member, by simp [held]⟩

private theorem mem_showing_fold {catalog : Catalog τ σ π} {socket : π} {slots : List σ}
    {tiles : List Nat} {set result : Candidates}
    (found : tiles.foldlM (fun set index => do
      let tile ← catalog.tile index
      if slots.all fun slot => tile.socket? slot = some socket then set.insertBelow index
      else return set) set = .ok result) (other : Nat) :
    other ∈ result ↔ other ∈ set ∨
      other ∈ tiles ∧ ∀ slot ∈ slots, catalog.shows other slot socket = true := by
  induction tiles generalizing set with
  | nil =>
    cases found
    simp
  | cons index rest ih =>
    rw [List.foldlM_cons] at found
    cases known : catalog.tile? index with
    | none =>
      simp only [Catalog.tile, known] at found
      cases found
    | some tile =>
      have shown : (∀ slot ∈ slots, catalog.shows index slot socket = true) ↔
          (slots.all fun slot => tile.socket? slot = some socket) = true := by
        simp [Catalog.shows, known]
      simp only [Catalog.tile, known, bind, Except.bind] at found
      by_cases fits : (slots.all fun slot => tile.socket? slot = some socket) = true
      · rw [if_pos fits] at found
        unfold Candidates.insertBelow at found
        split at found
        · cases found
        · rename_i next inserted
          split at inserted
          · cases inserted
            rw [ih found, Candidates.mem_insert, List.mem_cons, or_assoc]
            refine or_congr_right ⟨?_, ?_⟩
            · rintro (rfl | ⟨member, meets⟩)
              · exact ⟨.inl rfl, shown.mpr fits⟩
              · exact ⟨.inr member, meets⟩
            · rintro ⟨same | member, meets⟩
              · exact .inl same
              · exact .inr ⟨member, meets⟩
          · cases inserted
      · rw [if_neg fits] at found
        rw [ih found, List.mem_cons]
        refine or_congr_right ⟨fun ⟨member, meets⟩ => ⟨.inr member, meets⟩, ?_⟩
        rintro ⟨rfl | member, meets⟩
        · exact absurd (shown.mp meets) fits
        · exact ⟨member, meets⟩

theorem mem_showing? {catalog : Catalog τ σ π} {socket : π} {slots : List σ}
    {candidates result : Candidates}
    (found : showing? catalog socket slots candidates = .ok result) (tile : Nat) :
    tile ∈ result ↔
      tile ∈ candidates ∧ ∀ slot ∈ slots, catalog.shows tile slot socket = true := by
  rw [mem_showing_fold found]
  simp

omit [Key κ] in
/-- What trimming a cell comes to: it faces the outside on no slot, or all its candidates are
allowed, or it is left with those that are. -/
theorem trimmed?_ok {catalog : Catalog τ σ π} {socket : π} {adjacency : List (σ × Neighbour κ)}
    {given : Cell κ σ} {result : Option (Cell κ σ)}
    (trimmed : trimmed? catalog socket adjacency given = .ok result) :
    outward given adjacency = [] ∧ result = none ∨
    ∃ allowed, showing? catalog socket (outward given adjacency) given.candidates = .ok allowed ∧
      (¬allowed.count < given.count ∧ result = none ∨
        allowed.count < given.count ∧
          ∃ cell, given.restrict allowed = .ok cell ∧ result = some cell) := by
  unfold trimmed? at trimmed
  split at trimmed
  · rename_i inner
    cases trimmed
    exact .inl ⟨inner, rfl⟩
  · cases shown : showing? catalog socket (outward given adjacency) given.candidates with
    | error reason =>
      rw [shown] at trimmed
      cases trimmed
    | ok allowed =>
      refine .inr ⟨allowed, rfl, ?_⟩
      simp only [shown, bind, Except.bind] at trimmed
      split at trimmed
      · rename_i fewer
        cases restricted : given.restrict allowed with
        | error reason =>
          rw [restricted] at trimmed
          cases trimmed
        | ok cell =>
          rw [restricted] at trimmed
          cases trimmed
          exact .inr ⟨fewer, cell, rfl, rfl⟩
      · rename_i notFewer
        cases trimmed
        exact .inl ⟨notFewer, rfl⟩

omit [Key κ] in
theorem restricted_of_trimmed? {catalog : Catalog τ σ π} {socket : π}
    {adjacency : List (σ × Neighbour κ)} {given cell : Cell κ σ}
    (trimmed : trimmed? catalog socket adjacency given = .ok (some cell)) :
    ∃ allowed, allowed.count < given.count ∧ given.restrict allowed = .ok cell := by
  rcases trimmed?_ok trimmed with
    ⟨-, none⟩ | ⟨allowed, -, ⟨-, none⟩ | ⟨fewer, after, restricted, same⟩⟩
  · cases none
  · cases none
  · cases same
    exact ⟨allowed, fewer, restricted⟩

omit [Key κ] in
theorem trimmedCells_cons_ok {catalog : Catalog τ σ π} {socket : π}
    {adjacency : κ → List (σ × Neighbour κ)} {id : κ} {given : Cell κ σ}
    {rest changed : List (κ × Cell κ σ)}
    (trimmed : trimmedCells catalog socket adjacency ((id, given) :: rest) = .ok changed) :
    ∃ result later, trimmed? catalog socket (adjacency id) given = .ok result ∧
      trimmedCells catalog socket adjacency rest = .ok later ∧
      changed = (result.map fun cell => (id, cell)).toList ++ later := by
  unfold trimmedCells at trimmed
  cases first : trimmed? catalog socket (adjacency id) given with
  | error reason =>
    rw [first] at trimmed
    cases trimmed
  | ok result =>
    cases others : trimmedCells catalog socket adjacency rest with
    | error reason =>
      simp only [first, others, bind, Except.bind] at trimmed
      cases trimmed
    | ok later =>
      simp only [first, others, bind, Except.bind] at trimmed
      cases result <;> cases trimmed <;> exact ⟨_, later, rfl, rfl, rfl⟩

omit [Key κ] in
theorem mem_trimmedCells {catalog : Catalog τ σ π} {socket : π}
    {adjacency : κ → List (σ × Neighbour κ)} {entries changed : List (κ × Cell κ σ)}
    (trimmed : trimmedCells catalog socket adjacency entries = .ok changed) {id : κ}
    {cell : Cell κ σ} (listed : (id, cell) ∈ changed) :
    ∃ given, (id, given) ∈ entries ∧
      trimmed? catalog socket (adjacency id) given = .ok (some cell) := by
  induction entries generalizing changed with
  | nil =>
    cases trimmed
    cases listed
  | cons head rest ih =>
    obtain ⟨result, later, first, others, rfl⟩ := trimmedCells_cons_ok trimmed
    rcases List.mem_append.mp listed with listed | listed
    · cases result with
      | none => cases listed
      | some after =>
        cases List.mem_singleton.mp listed
        exact ⟨head.2, List.mem_cons_self, first⟩
    · obtain ⟨given, member, trimmed⟩ := ih others listed
      exact ⟨given, List.mem_cons_of_mem _ member, trimmed⟩

variable {constraints : Constraints κ τ σ π}

theorem trims_of_trimmed? {id : κ} {given : Cell κ σ} {result : Option (Cell κ σ)}
    (trimmed : trimmed? constraints.catalog constraints.boundarySocket (constraints.adjacency id)
      given = .ok result) :
    constraints.Trims id given (result.getD given) := by
  rcases trimmed?_ok trimmed with ⟨inner, rfl⟩ | ⟨allowed, shown, left⟩
  · refine ⟨rfl, fun tile => ⟨fun member => ⟨member, fun slot arc own => ?_⟩, And.left⟩⟩
    have outer := mem_outward.mpr ⟨arc, own⟩
    rw [inner] at outer
    cases outer
  · have members : ∀ tile, tile ∈ allowed ↔ tile ∈ given.candidates ∧
        ∀ slot, (slot, .boundary) ∈ constraints.adjacency id →
          given.slots.contains slot = true →
            constraints.catalog.shows tile slot constraints.boundarySocket = true := by
      intro tile
      rw [mem_showing? shown]
      simp only [mem_outward, and_imp]
    rcases left with ⟨notFewer, rfl⟩ | ⟨-, cell, restricted, rfl⟩
    · refine ⟨rfl, fun tile => ⟨fun member => ⟨member, ?_⟩, And.left⟩⟩
      by_cases held : tile ∈ allowed
      · exact ((members tile).mp held).2
      · have fewer := Candidates.count_lt_of_subset
          (fun other held => ((members other).mp held).1) held member
        exact absurd fewer notFewer
    · obtain ⟨_, candidates, slots⟩ := Cell.restrict_ok restricted
      exact ⟨slots, fun tile => candidates ▸ members tile⟩

/-- What trimming the cells of a board comes to: the changed cells are some of them, in their
order, and each cell is left as trimming leaves it. -/
theorem trims_of_trimmedCells {entries changed : List (κ × Cell κ σ)}
    (trimmed : trimmedCells constraints.catalog constraints.boundarySocket constraints.adjacency
      entries = .ok changed) (nodup : (entries.map (·.1)).Nodup) :
    (changed.map (·.1)).Sublist (entries.map (·.1)) ∧
      ∀ entry ∈ entries, ∃ cell, constraints.Trims entry.1 entry.2 cell ∧
        ((entry.1, cell) ∈ changed ∨ cell = entry.2 ∧ entry.1 ∉ changed.map (·.1)) := by
  induction entries generalizing changed with
  | nil =>
    cases trimmed
    simp
  | cons head rest ih =>
    obtain ⟨id, given⟩ := head
    obtain ⟨absent, nodup⟩ := List.nodup_cons.mp nodup
    obtain ⟨result, later, first, others, rfl⟩ := trimmedCells_cons_ok trimmed
    obtain ⟨sublist, left⟩ := ih others nodup
    have trims := trims_of_trimmed? first
    have apart : id ∉ later.map (·.1) := fun listed => absent (sublist.mem listed)
    cases result with
    | none =>
      refine ⟨sublist.cons _, fun entry listed => ?_⟩
      rcases List.mem_cons.mp listed with rfl | listed
      · exact ⟨given, trims, .inr ⟨rfl, apart⟩⟩
      · exact left entry listed
    | some cell =>
      refine ⟨sublist.cons_cons _, fun entry listed => ?_⟩
      rcases List.mem_cons.mp listed with rfl | listed
      · exact ⟨cell, trims, .inl (List.mem_cons_self ..)⟩
      · obtain ⟨after, trims, place⟩ := left entry listed
        refine ⟨after, trims, ?_⟩
        rcases place with changed | ⟨same, unchanged⟩
        · exact .inl (List.mem_cons_of_mem _ changed)
        · have listed : entry.1 ∈ rest.map (·.1) := List.mem_map.mpr ⟨entry, listed, rfl⟩
          have differ : entry.1 ≠ id := fun same => absent (same ▸ listed)
          exact .inr ⟨same, by simpa [differ] using unchanged⟩

theorem keys_foldl_put (changed : List (κ × Cell κ σ)) (board : Board κ σ) :
    (changed.foldl (fun board (id, cell) => board.put id cell) board).cells.keys =
      board.cells.keys := by
  induction changed generalizing board with
  | nil => rfl
  | cons head rest ih => simp [ih]

theorem get?_foldl_put_of_not_mem {changed : List (κ × Cell κ σ)} {id : κ}
    (absent : id ∉ changed.map (·.1)) (board : Board κ σ) :
    (changed.foldl (fun board (id, cell) => board.put id cell) board).get? id =
      board.get? id := by
  induction changed generalizing board with
  | nil => rfl
  | cons head rest ih =>
    simp only [List.map_cons, List.mem_cons, not_or] at absent
    rw [List.foldl_cons, ih absent.2, Board.get?_put, if_neg (Ne.symm absent.1)]

theorem get?_foldl_put {changed : List (κ × Cell κ σ)} {id : κ} {given cell : Cell κ σ}
    {board : Board κ σ} (found : board.get? id = some given) (listed : (id, cell) ∈ changed)
    (nodup : (changed.map (·.1)).Nodup) :
    (changed.foldl (fun board (id, cell) => board.put id cell) board).get? id = some cell := by
  induction changed generalizing board given with
  | nil => cases listed
  | cons head rest ih =>
    obtain ⟨absent, nodup⟩ := List.nodup_cons.mp nodup
    rw [List.foldl_cons]
    rcases List.mem_cons.mp listed with rfl | listed
    · rw [get?_foldl_put_of_not_mem absent]
      simp [found]
    · have present : ∃ given, (board.put head.1 head.2).get? id = some given := by
        rw [Board.get?_put]
        split <;> simp [found]
      obtain ⟨given, found⟩ := present
      exact ih found listed nodup

theorem mem_or_get?_of_foldl_put {changed : List (κ × Cell κ σ)} {id : κ} {cell : Cell κ σ}
    {board : Board κ σ}
    (found : (changed.foldl (fun board (id, cell) => board.put id cell) board).get? id =
      some cell) : (id, cell) ∈ changed ∨ board.get? id = some cell := by
  induction changed generalizing board with
  | nil => exact .inr found
  | cons head rest ih =>
    rcases ih found with listed | held
    · exact .inl (List.mem_cons_of_mem _ listed)
    · rw [Board.get?_put] at held
      split at held
      · rename_i same
        obtain ⟨_, -, rfl⟩ := Option.map_eq_some_iff.mp held
        exact .inl (same ▸ List.mem_cons_self)
      · exact .inr held

/-- The cells that lose candidates to the boundary make the board a trimmed one. -/
theorem trimmed_foldl_put {changed : List (κ × Cell κ σ)}
    (trimmed : trimmedCells constraints.catalog constraints.boundarySocket constraints.adjacency
      constraints.board.cells.entries = .ok changed) :
    constraints.Trimmed
      (changed.foldl (fun board (id, cell) => board.put id cell) constraints.board) := by
  have nodup := constraints.board.cells.nodup_keys
  obtain ⟨sublist, left⟩ := trims_of_trimmedCells trimmed nodup
  refine ⟨keys_foldl_put changed constraints.board, fun id given found => ?_⟩
  obtain ⟨cell, trims, place⟩ := left (id, given) (Board.get?_eq_some_iff.mp found)
  rcases place with listed | ⟨rfl, unchanged⟩
  · exact ⟨cell, get?_foldl_put found listed (nodup.sublist sublist), trims⟩
  · exact ⟨_, (get?_foldl_put_of_not_mem unchanged _).trans found, trims⟩

/-- The names of the collapsed cells in cell order. -/
def seeds (board : Board κ σ) : List κ :=
  board.cells.entries.filterMap fun (id, cell) => if cell.collapsed then some id else none

theorem queue_eq (board : Board κ σ) (changed : List κ) :
    queue board changed = seeds board ++ changed.filter fun id => id ∉ seeds board := rfl

theorem mem_seeds {board : Board κ σ} {id : κ} :
    id ∈ seeds board ↔ ∃ cell, board.get? id = some cell ∧ cell.collapsed = true := by
  simp only [seeds, List.mem_filterMap, Board.get?_eq_some_iff, Option.ite_none_right_eq_some,
    Option.some.injEq, Prod.exists]
  constructor
  · rintro ⟨other, cell, listed, collapsed, rfl⟩
    exact ⟨cell, listed, collapsed⟩
  · rintro ⟨cell, listed, collapsed⟩
    exact ⟨id, cell, listed, collapsed, rfl⟩

theorem seeds_sublist (board : Board κ σ) : (seeds board).Sublist board.cells.keys := by
  unfold seeds SortedMap.keys
  induction board.cells.entries with
  | nil => exact .slnil
  | cons head rest ih =>
    obtain ⟨id, cell⟩ := head
    cases flag : cell.collapsed with
    | true => simpa [flag] using ih
    | false => simpa [flag] using ih.cons id

theorem mem_queue {board : Board κ σ} {changed : List κ} {id : κ} :
    id ∈ queue board changed ↔
      (∃ cell, board.get? id = some cell ∧ cell.collapsed = true) ∨ id ∈ changed := by
  rw [queue_eq, List.mem_append, List.mem_filter, decide_eq_true_eq, mem_seeds]
  by_cases seen : ∃ cell, board.get? id = some cell ∧ cell.collapsed = true <;> simp [seen]

theorem nodup_queue {board : Board κ σ} {changed : List κ} (nodup : changed.Nodup) :
    (queue board changed).Nodup := by
  have single := board.cells.nodup_keys.sublist (seeds_sublist board)
  refine List.nodup_append.mpr ⟨single, nodup.filter _, ?_⟩
  intro id seed other kept same
  subst same
  simpa [seed] using (List.mem_filter.mp kept).2

theorem lt_of_stray?_eq_none {tileCount : Nat} {board : Board κ σ}
    (none : stray? tileCount board = none) {id : κ} {cell : Cell κ σ}
    (found : board.get? id = some cell) {tile : Nat} (member : tile ∈ cell.candidates) :
    tile < tileCount := by
  have known := List.findSome?_eq_none_iff.mp none (id, cell) (Board.get?_eq_some_iff.mp found)
  rw [Option.map_eq_none_iff, List.find?_eq_none] at known
  simpa using known tile (Candidates.mem_toList.mpr member)

end Problem

namespace Constraints

variable {constraints : Constraints κ τ σ π}

theorem Trimmed.given {board : Board κ σ} (trimmed : constraints.Trimmed board) {id : κ}
    {cell : Cell κ σ} (found : board.get? id = some cell) :
    ∃ given, constraints.board.get? id = some given ∧ constraints.Trims id given cell := by
  have listed : id ∈ constraints.board.cells.keys :=
    trimmed.keys ▸ SortedMap.mem_keys_iff.mpr ⟨cell, found⟩
  obtain ⟨given, held⟩ := SortedMap.mem_keys_iff.mp listed
  obtain ⟨after, found', trims⟩ := trimmed.cell id given held
  cases found.symm.trans found'
  exact ⟨given, held, trims⟩

/-- No solution is lost to the boundary. -/
theorem Solution.holds {tiles : κ → Nat} (solution : constraints.Solution tiles)
    {board : Board κ σ} (trimmed : constraints.Trimmed board) : board.Holds tiles := by
  intro id cell found
  obtain ⟨given, held, trims⟩ := trimmed.given found
  rw [trims.candidates]
  exact ⟨solution.candidate id given held, solution.boundary id given held⟩

/-- What the searches of these constraints start as. -/
structure Opens (constraints : Constraints κ τ σ π) (search : Search κ σ) : Prop where
  tileCount : search.rules.tileCount = constraints.catalog.size
  support : search.rules.support = .ofCatalog constraints.catalog constraints.pairing
  adjacency : search.rules.adjacency = constraints.adjacency
  known : ∀ id given, constraints.board.get? id = some given →
    ∀ tile ∈ given.candidates, tile < constraints.catalog.size
  trimmed : constraints.Trimmed search.rules.start.board
  position : search.position = search.rules.start
  trail : search.trail = .empty
  collapsed : ∀ id cell, search.rules.start.board.get? id = some cell → cell.collapsed = true →
    id ∈ search.pending
  nodup : search.pending.Nodup
  listed : ∀ id ∈ search.pending, id ∈ constraints.board.cells.keys
  visit : search.visit = none
  retry : search.retry = none
  finished : search.finished = false

private theorem mem_queue_of_collapsed {changed : List (κ × Cell κ σ)} {id : κ} {cell : Cell κ σ}
    (found : (changed.foldl (fun board (id, cell) => board.put id cell)
      constraints.board).get? id = some cell) (collapsed : cell.collapsed = true) :
    id ∈ Problem.queue constraints.board (changed.map (·.1)) := by
  rw [Problem.mem_queue]
  by_cases listed : id ∈ changed.map (·.1)
  · exact .inr listed
  · rw [Problem.get?_foldl_put_of_not_mem listed] at found
    exact .inl ⟨cell, found, collapsed⟩

/-- What a search is that starts when these cells have lost candidates to the boundary. -/
structure Begins (constraints : Constraints κ τ σ π) (weighting : Option (Weighting κ))
    (draws : Draws) (changed : List (κ × Cell κ σ)) (search : Search κ σ) : Prop where
  known : Problem.stray? constraints.catalog.size constraints.board = none
  trimmed : Problem.trimmedCells constraints.catalog constraints.boundarySocket
    constraints.adjacency constraints.board.cells.entries = .ok changed
  board : search.rules.start.board =
    changed.foldl (fun board (id, cell) => board.put id cell) constraints.board
  viable : search.rules.start.board.Viable
  entropy : search.rules.start.entropy = .ofBoard draws search.rules.start.board
  tileCount : search.rules.tileCount = constraints.catalog.size
  support : search.rules.support = .ofCatalog constraints.catalog constraints.pairing
  adjacency : search.rules.adjacency = constraints.adjacency
  weighting : search.rules.weighting = weighting
  draws : search.rules.draws = draws
  position : search.position = search.rules.start
  trail : search.trail = .empty
  pending : search.pending = Problem.queue constraints.board (changed.map (·.1))
  visit : search.visit = none
  retry : search.retry = none
  tally : search.tally = {}
  drawn : search.drawn = Entropy.drawsForBoard search.rules.start.board
  finished : search.finished = false

theorem begins_of_started {weighting : Option (Weighting κ)} {draws : Draws} {showing : Bool}
    {search : Search κ σ}
    (started : (constraints.problem weighting draws showing).start.outcome = .ok search) :
    ∃ changed, constraints.Begins weighting draws changed search := by
  simp only [problem, Problem.start] at started
  split at started
  · cases started
  · rename_i known
    unfold Problem.begin at started
    split at started
    · cases started
    · rename_i changed trimmed
      dsimp only at started
      split at started
      · cases started
      · rename_i nonempty
        cases started
        refine ⟨changed, known, trimmed, rfl, fun id cell found => ?_, rfl, rfl, rfl, rfl, rfl, rfl,
          rfl, rfl, rfl, rfl, rfl, rfl, rfl, rfl⟩
        have held : ¬cell.count = 0 := by
          simpa using List.find?_eq_none.mp nonempty (id, cell) (Board.get?_eq_some_iff.mp found)
        exact Candidates.exists_mem_of_count_ne_zero held

theorem Begins.trims {weighting : Option (Weighting κ)} {draws : Draws}
    {changed : List (κ × Cell κ σ)} {search : Search κ σ}
    (begins : constraints.Begins weighting draws changed search) :
    constraints.Trimmed search.rules.start.board := by
  rw [begins.board]
  exact Problem.trimmed_foldl_put begins.trimmed

theorem Starts.opens {search : Search κ σ} (starts : constraints.Starts search) :
    constraints.Opens search := by
  obtain ⟨weighting, draws, showing, started⟩ := starts
  obtain ⟨changed, begins⟩ := begins_of_started started
  have nodup := constraints.board.cells.nodup_keys
  obtain ⟨sublist, -⟩ := Problem.trims_of_trimmedCells begins.trimmed nodup
  constructor
  case tileCount => exact begins.tileCount
  case support => exact begins.support
  case adjacency => exact begins.adjacency
  case known => exact fun id given found tile => Problem.lt_of_stray?_eq_none begins.known found
  case trimmed => exact begins.trims
  case position => exact begins.position
  case trail => exact begins.trail
  case collapsed =>
    rw [begins.board, begins.pending]
    exact fun id cell => mem_queue_of_collapsed
  case nodup => exact begins.pending ▸ Problem.nodup_queue (nodup.sublist sublist)
  case listed =>
    intro id queued
    rw [begins.pending] at queued
    rcases Problem.mem_queue.mp queued with ⟨cell, found, -⟩ | listed
    · exact SortedMap.mem_keys_iff.mpr ⟨cell, found⟩
    · exact sublist.mem listed
  case visit => exact begins.visit
  case retry => exact begins.retry
  case finished => exact begins.finished

/-- A search starts on the given board less what cells lose to the boundary, with nothing
counted. -/
theorem Starts.begun {search : Search κ σ} (starts : constraints.Starts search) :
    ∃ changed, Problem.trimmedCells constraints.catalog constraints.boundarySocket
        constraints.adjacency constraints.board.cells.entries = .ok changed ∧
      search.rules.start.board =
        changed.foldl (fun board (id, cell) => board.put id cell) constraints.board ∧
      search.tally = {} := by
  obtain ⟨weighting, draws, showing, started⟩ := starts
  obtain ⟨changed, begins⟩ := begins_of_started started
  exact ⟨changed, begins.trimmed, begins.board, begins.tally⟩

theorem settings_of_started {weighting : Option (Weighting κ)} {draws : Draws} {showing : Bool}
    {search : Search κ σ}
    (started : (constraints.problem weighting draws showing).start.outcome = .ok search) :
    search.rules.weighting = weighting ∧ search.rules.draws = draws ∧
      search.rules.start.entropy = .ofBoard draws search.rules.start.board ∧
        search.drawn = Entropy.drawsForBoard search.rules.start.board := by
  obtain ⟨changed, begins⟩ := begins_of_started started
  exact ⟨begins.weighting, begins.draws, begins.entropy, begins.drawn⟩

theorem Starts.viable {search : Search κ σ} (starts : constraints.Starts search) :
    search.rules.start.board.Viable := by
  obtain ⟨weighting, draws, showing, started⟩ := starts
  obtain ⟨changed, begins⟩ := begins_of_started started
  exact begins.viable

theorem Starts.unobserved {search : Search κ σ} (starts : constraints.Starts search)
    (given : ∀ id cell, constraints.board.get? id = some cell → cell.observed = false) {id : κ}
    {cell : Cell κ σ} (found : search.rules.start.board.get? id = some cell) :
    cell.observed = false := by
  obtain ⟨changed, trimmed, board, -⟩ := starts.begun
  rw [board] at found
  rcases Problem.mem_or_get?_of_foldl_put found with listed | held
  · obtain ⟨given, -, trimmed⟩ := Problem.mem_trimmedCells trimmed listed
    obtain ⟨allowed, -, restricted⟩ := Problem.restricted_of_trimmed? trimmed
    exact Cell.observed_of_restrict restricted
  · exact given id cell held

theorem exists_empty_of_unsatisfiable {weighting : Option (Weighting κ)} {draws : Draws}
    {showing : Bool}
    (failed : (constraints.problem weighting draws showing).start.outcome =
      .error (.error .unsatisfiable)) :
    ∃ board, constraints.Trimmed board ∧
      ∃ id cell, board.get? id = some cell ∧ ∀ tile, tile ∉ cell.candidates := by
  simp only [problem, Problem.start] at failed
  split at failed
  · cases failed
  · unfold Problem.begin at failed
    split at failed
    · cases failed
    · rename_i changed trimmed
      dsimp only at failed
      split at failed
      · rename_i id cell emptied
        have empty : cell.count = 0 := by simpa using List.find?_some emptied
        have found := Board.get?_eq_some_iff.mpr (List.mem_of_find?_eq_some emptied)
        exact ⟨_, Problem.trimmed_foldl_put trimmed, id, cell, found,
          Candidates.count_eq_zero_iff.mp empty⟩
      · cases failed

/-- A problem that starts no search for want of candidates has no solution. -/
theorem not_solution_of_unsatisfiable {weighting : Option (Weighting κ)} {draws : Draws}
    {showing : Bool}
    (failed : (constraints.problem weighting draws showing).start.outcome =
      .error (.error .unsatisfiable)) (tiles : κ → Nat) : ¬constraints.Solution tiles := by
  intro solution
  obtain ⟨board, trimmed, id, cell, found, empty⟩ := exists_empty_of_unsatisfiable failed
  exact empty (tiles id) (solution.holds trimmed id cell found)

end Constraints

end Tiling
