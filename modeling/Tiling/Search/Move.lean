import Tiling.Search.State

/-!
The moves of a search. A quiet move only changes what remains to be done; any other move is
reported. `Search.advance` makes quiet moves until there is something to report, and
`work_lt_of_quiet` says why that ends: a quiet move uses up pending cells and checks.
-/

namespace Tiling

variable {κ σ : Type} [Key κ] [Key σ]

/-- What a reported move came to. -/
inductive Verdict (κ σ : Type) where
  | progress (event : Event κ)
  | done
  | failed (failure : Failure (SearchError κ σ))

/-- A reported move. -/
structure Report (κ σ : Type) [Key κ] [Key σ] where
  after : Search κ σ
  verdict : Verdict κ σ
  notices : List (Notice κ)

/-- One move of a search. -/
inductive Move (κ σ : Type) [Key κ] [Key σ] where
  | quiet (after : Search κ σ)
  | report (made : Report κ σ)

namespace Report

/-- A move that cannot be made. -/
def error (search : Search κ σ) (reason : SearchError κ σ) (notices : List (Notice κ)) :
    Report κ σ :=
  ⟨search, .failed (.error reason), notices⟩

/-- A move that breaks a contract. -/
def fault (search : Search κ σ) (reason : Fault) (notices : List (Notice κ)) : Report κ σ :=
  ⟨search, .failed (.fault reason), notices⟩

/-- Shows a cell under a mark. -/
def inspected (search : Search κ σ) (cell : κ) (mark : Mark) : Report κ σ :=
  ⟨search.mark cell mark, .progress (.inspected cell mark), []⟩

end Report

/-- The checks of a visit: one for every listed neighbour across one of the cell's slots. -/
def Check.ofAdjacency (support : Support σ) (cell : Cell κ σ) :
    List (σ × Neighbour κ) → Except (SupportError σ) (List (Check κ))
  | [] => .ok []
  | (_, .boundary) :: rest => ofAdjacency support cell rest
  | (slot, .cell neighbour) :: rest =>
    if cell.slots.contains slot then do
      let allowed ← support.acrossAny cell.candidates slot
      let checks ← ofAdjacency support cell rest
      return { neighbour, allowed } :: checks
    else ofAdjacency support cell rest

namespace Check

variable {support : Support σ} {cell : Cell κ σ} {adjacency : List (σ × Neighbour κ)}
  {checks : List (Check κ)}

omit [Key κ] in
theorem ofAdjacency_cons_ok {arc : σ × Neighbour κ} {rest : List (σ × Neighbour κ)}
    (found : ofAdjacency support cell (arc :: rest) = .ok checks) :
    ∃ others, ofAdjacency support cell rest = .ok others ∧
      ((∀ neighbour, arc.2 = .cell neighbour → cell.slots.contains arc.1 = false) ∧
          checks = others ∨
        ∃ neighbour allowed, arc.2 = .cell neighbour ∧ cell.slots.contains arc.1 = true ∧
          support.acrossAny cell.candidates arc.1 = .ok allowed ∧
          checks = { neighbour, allowed } :: others) := by
  obtain ⟨slot, neighbour | _⟩ := arc
  · unfold ofAdjacency at found
    split at found
    · rename_i own
      cases allowed : support.acrossAny cell.candidates slot with
      | error reason => rw [allowed] at found; cases found
      | ok set =>
        cases others : ofAdjacency support cell rest with
        | error reason => rw [allowed, others] at found; cases found
        | ok later =>
          rw [allowed, others] at found
          cases found
          exact ⟨later, rfl, .inr ⟨neighbour, set, rfl, own, rfl, rfl⟩⟩
    · rename_i foreign
      refine ⟨checks, found, .inl ⟨fun _ _ => ?_, rfl⟩⟩
      simpa using foreign
  · exact ⟨checks, found, .inl ⟨nofun, rfl⟩⟩

omit [Key κ] in
theorem length_ofAdjacency_le (found : ofAdjacency support cell adjacency = .ok checks) :
    checks.length ≤ adjacency.length := by
  induction adjacency generalizing checks with
  | nil =>
    cases found
    exact Nat.le_refl 0
  | cons arc rest ih =>
    obtain ⟨others, later, ⟨-, rfl⟩ | ⟨_, _, -, -, -, rfl⟩⟩ := ofAdjacency_cons_ok found
    · exact Nat.le_succ_of_le (ih later)
    · exact Nat.succ_le_succ (ih later)

omit [Key κ] in
/-- A check comes from a listed neighbour across one of the cell's slots. -/
theorem arc_of_mem_ofAdjacency (found : ofAdjacency support cell adjacency = .ok checks)
    {check : Check κ} (member : check ∈ checks) :
    ∃ slot, (slot, .cell check.neighbour) ∈ adjacency ∧ cell.slots.contains slot = true ∧
      support.acrossAny cell.candidates slot = .ok check.allowed := by
  induction adjacency generalizing checks with
  | nil =>
    cases found
    cases member
  | cons arc rest ih =>
    obtain ⟨others, later, ⟨-, rfl⟩ | ⟨neighbour, allowed, across, own, supported, rfl⟩⟩ :=
      ofAdjacency_cons_ok found
    · obtain ⟨slot, listed, held⟩ := ih later member
      exact ⟨slot, List.mem_cons_of_mem _ listed, held⟩
    · rcases List.mem_cons.mp member with rfl | member
      · exact ⟨arc.1, by simp [← across], own, supported⟩
      · obtain ⟨slot, listed, held⟩ := ih later member
        exact ⟨slot, List.mem_cons_of_mem _ listed, held⟩

omit [Key κ] in
theorem exists_mem_ofAdjacency (found : ofAdjacency support cell adjacency = .ok checks)
    {slot : σ} {neighbour : κ} (arc : (slot, .cell neighbour) ∈ adjacency)
    (own : cell.slots.contains slot = true) :
    ∃ check ∈ checks, check.neighbour = neighbour ∧
      support.acrossAny cell.candidates slot = .ok check.allowed := by
  induction adjacency generalizing checks with
  | nil => cases arc
  | cons head rest ih =>
    obtain ⟨others, later, ⟨foreign, rfl⟩ | ⟨other, allowed, across, -, supported, rfl⟩⟩ :=
      ofAdjacency_cons_ok found
    · rcases List.mem_cons.mp arc with rfl | arc
      · simp [foreign neighbour rfl] at own
      · exact ih later arc
    · rcases List.mem_cons.mp arc with rfl | arc
      · cases across
        exact ⟨_, List.mem_cons_self .., rfl, supported⟩
      · obtain ⟨check, member, held⟩ := ih later arc
        exact ⟨check, List.mem_cons_of_mem _ member, held⟩

end Check

namespace Search

/-- The visit of a cell, with the support of its present candidates across each slot. -/
def openVisit (search : Search κ σ) (id : κ) : Except (SearchError κ σ) (Visit κ) :=
  match search.position.board.get? id with
  | none => .error (.unknownCell id)
  | some cell =>
    match Check.ofAdjacency search.rules.support cell (search.rules.adjacency id) with
    | .error reason => .error (.support reason)
    | .ok checks => .ok { source := id, checks }

/-- Undoes the decision at a place of the trail, and everything after it. -/
def undo (search : Search κ σ) (index : Nat) :
    Except (Failure (SearchError κ σ)) (Decision κ σ × Search κ σ) :=
  match search.trail.cutAt index with
  | .error reason => .error (.fault reason)
  | .ok (some (.decision made), trail) =>
    .ok (made, { search with
      position := (trail.newest?.map (·.after)).getD search.rules.start
      trail
      pending := []
      visit := none
      retry := some ⟨made.cell, made.tried⟩
      tally := { search.tally with rollbacks := search.tally.rollbacks + 1 } })
  | .ok _ => .error (.error (.lostDecision index))

/-- Undoes the newest decision, if one stands. -/
def retreat (search : Search κ σ) (notices : List (Notice κ)) : Report κ σ :=
  match search.trail.lastDecision? with
  | none =>
    .error search .unsatisfiable
      (notices ++ [.nothingToRollBack search.tally.collapses search.tally.rollbacks])
  | some index =>
    match search.undo index with
    | .error failure => ⟨search, .failed failure, notices⟩
    | .ok (made, after) =>
      ⟨after, .progress (.rolledBack made.cell),
        notices ++ [.rolledBack made.cell made.tile made.tried.count]⟩

/-- A neighbour without a supported candidate refutes the decisions that stand. -/
def contradict (search : Search κ σ) (source cell : κ) : Report κ σ :=
  (search.mark cell .conflict).retreat [.contradiction source cell]

/-- Leaves a cell with fewer candidates, and queues it. -/
def narrow (search : Search κ σ) (source id : κ) (cell : Cell κ σ) (tiles : Candidates) :
    Except Fault (Search κ σ) := do
  let cell ← cell.restrict tiles
  let count := tiles.count
  let position : Position κ σ :=
    { board := search.position.board.put id cell
      entropy := search.position.entropy.put id
        (Entropy.score search.rules.draws search.drawn count) search.tally.changes }
  return { search.mark id .changed with
    position
    trail := search.trail.push (.narrowing { source, cell := id, tiles, after := position })
    pending := search.pending ++ [id]
    tally := { search.tally with updates := search.tally.updates + 1 }
    drawn := search.drawn + Entropy.drawsFor count }

/-- Leaves a neighbour with its supported candidates, of which there must be one. -/
def constrain (search : Search κ σ) (source id : κ) (cell : Cell κ σ) (tiles : Candidates) :
    Report κ σ :=
  if tiles.count = 0 then search.contradict source id
  else
    match search.narrow source id cell tiles with
    | .error reason => .fault search reason []
    | .ok after =>
      ⟨after, .progress (.updated source id), [.narrowed source id tiles.count]⟩

/-- Shows a check before it is made, and leaves it to be made. -/
def preview (search : Search κ σ) (check : Check κ) : Report κ σ :=
  .inspected { search with visit := search.visit.map fun visit =>
    { visit with checks := { check with inspected := true } :: visit.checks } }
    check.neighbour .checked

/-- Makes a check that has been taken off the visit. The tile of a collapsed neighbour must be
supported; any other neighbour keeps its supported candidates. -/
def examine (search : Search κ σ) (source : κ) (check : Check κ) : Move κ σ :=
  match search.position.board.get? check.neighbour with
  | none => .report (.error search (.unknownCell check.neighbour) [])
  | some target =>
    match target.tile? with
    | some tile =>
      if tile ∈ check.allowed then .quiet search
      else .report (search.contradict source check.neighbour)
    | none =>
      if search.isShowing && !check.inspected then .report (search.preview check)
      else if target.candidates.isSubset check.allowed then
        if search.isShowing then .report (.inspected search check.neighbour .noChange)
        else .quiet search
      else
        .report (search.constrain source check.neighbour target
          (target.candidates.inter check.allowed))

/-- The tiles tried before on a cell, if it is the one whose decision was undone last. -/
def triedOn (search : Search κ σ) (id : κ) : Candidates :=
  match search.retry with
  | some retry => if retry.cell = id then retry.tried else .empty search.rules.tileCount
  | none => .empty search.rules.tileCount

/-- Settles a cell on one of the options, and queues it. -/
def collapse (search : Search κ σ) (id : κ) (cell : Cell κ σ) (tried : Candidates)
    (options : List Nat) : Except Fault (Nat × Search κ σ) := do
  let (tile, drawn) ←
    choose search.rules.weighting search.rules.draws search.drawn id options
  let cell ← cell.observe tile
  let tried ← (tried.grow search.rules.tileCount).insertBelow tile
  let position : Position κ σ :=
    { board := search.position.board.put id cell
      entropy := search.position.entropy.put id Entropy.decided search.tally.changes }
  return (tile, { search.mark id .collapsed with
    position
    trail := search.trail.push (.decision { cell := id, tile, tried, after := position })
    pending := search.pending ++ [id]
    tally := { search.tally with collapses := search.tally.collapses + 1 }
    drawn })

/-- Settles the selected cell on a candidate not tried yet, or undoes the decision before it. -/
def settle (search : Search κ σ) (id : κ) : Report κ σ :=
  let tried := search.triedOn id
  let search := { search with retry := none }
  match search.position.board.get? id with
  | none => .error search (.unknownCell id) []
  | some cell =>
    if cell.collapsed then .error search (.alreadyCollapsed id) []
    else
      let options := (cell.candidates.diff tried).toList
      if options.isEmpty then search.retreat [.optionsSpent id]
      else
        match search.collapse id cell tried options with
        | .error reason => .fault search reason []
        | .ok (tile, after) => ⟨after, .progress (.collapsed id tile), [.collapsed id tile]⟩

/-- Settles the least decided cell, once nothing is left to narrow. -/
def select (search : Search κ σ) : Report κ σ :=
  match search.position.entropy.lowest? with
  | some id => search.clearMarks.settle id
  | none =>
    let uncollapsed := search.position.board.uncollapsed
    if 0 < uncollapsed then .error search (.exhausted uncollapsed) []
    else ⟨search, .done, [.boardCollapsed search.tally]⟩

/-- Shows a visit before its first check. -/
def announce (search : Search κ σ) (visit : Visit κ) : Move κ σ :=
  let search := { search with visit := some { visit with announced := true } }
  if search.isShowing then .report (.inspected search visit.source .source) else .quiet search

/-- One move: the next check of the visit under way, else the visit of the next pending cell,
else a decision. -/
def move (search : Search κ σ) : Move κ σ :=
  match search.visit with
  | some visit =>
    if !visit.announced then search.announce visit
    else
      match visit.checks with
      | check :: checks =>
        examine { search with visit := some { visit with checks } } visit.source check
      | [] => .quiet ({ search with visit := none }.mark visit.source .plain)
  | none =>
    match search.pending with
    | id :: pending =>
      let search := { search with pending }
      match search.openVisit id with
      | .error reason => .report (.error search reason [])
      | .ok visit => .quiet { search with visit := some visit }
    | [] => .report search.select

/-- A bound on the quiet moves left in a visit. -/
def visitWork : Option (Visit κ) → Nat
  | none => 0
  | some visit => visit.checks.length + if visit.announced then 1 else 2

/-- A bound on the quiet moves that pending cells lead to. -/
def pendingWork (adjacency : κ → List (σ × Neighbour κ)) : List κ → Nat
  | [] => 0
  | id :: rest => (adjacency id).length + 3 + pendingWork adjacency rest

/-- A bound on the quiet moves left before a decision. -/
def work (search : Search κ σ) : Nat :=
  visitWork search.visit + pendingWork search.rules.adjacency search.pending

theorem examine_quiet {search after : Search κ σ} {source : κ} {check : Check κ}
    (quiet : search.examine source check = .quiet after) : after = search := by
  unfold examine at quiet
  repeat' split at quiet
  all_goals first | cases quiet; rfl | cases quiet

theorem work_lt_of_quiet {search after : Search κ σ} (quiet : search.move = .quiet after) :
    after.work < search.work := by
  unfold move at quiet
  split at quiet
  · rename_i visit visiting
    split at quiet
    · rename_i fresh
      simp only [announce] at quiet
      split at quiet <;> cases quiet
      have fresh : visit.announced = false := by simpa using fresh
      simp [work, visiting, visitWork, fresh]
    · rename_i announced
      have announced : visit.announced = true := by simpa using announced
      split at quiet
      · rename_i check checks listed
        rw [examine_quiet quiet]
        simp [work, visiting, visitWork, listed, announced]
      · rename_i listed
        cases quiet
        simp [work, mark, visiting, visitWork, listed, announced]
  · rename_i idle
    split at quiet
    · rename_i id pending queued
      simp only [openVisit] at quiet
      repeat' split at quiet
      all_goals first
        | contradiction
        | cases quiet
      rename_i opened
      split at opened
      · cases opened
      · split at opened
        · cases opened
        · rename_i found
          cases opened
          have fewer := Check.length_ofAdjacency_le found
          simp only [work, idle, visitWork, queued, pendingWork]
          simp only [Bool.false_eq_true, if_false]
          omega
    · cases quiet

/-- Makes quiet moves until one is to be reported. -/
def advance (search : Search κ σ) : Report κ σ :=
  match _quiet : search.move with
  | .quiet after => after.advance
  | .report made => made
termination_by search.work
decreasing_by exact work_lt_of_quiet _quiet

end Search

end Tiling
