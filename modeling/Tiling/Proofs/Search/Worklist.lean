import Tiling.Proofs.Search.Trail

/-!
What is left to narrow. A cell that a search has to attend to is queued, or else each of its listed
neighbours either has only supported candidates or has a check in hand. Once nothing is left to
narrow, every such neighbour is supported.
-/

namespace Tiling

variable {κ σ : Type} [Key κ] [Key σ]

namespace Rules

/-- A neighbour is listed across one of the slots of a cell. -/
structure Arc (rules : Rules κ σ) (id : κ) (cell : Cell κ σ) (slot : σ) (other : κ) : Prop where
  listed : (slot, .cell other) ∈ rules.adjacency id
  own : cell.slots.contains slot = true

/-- The candidates of a cell support all those of its neighbour across a slot. -/
def Serves (rules : Rules κ σ) (board : Board κ σ) (cell : Cell κ σ) (slot : σ) (other : κ) :
    Prop :=
  ∃ target allowed, board.get? other = some target ∧
    rules.support.acrossAny cell.candidates slot = .ok allowed ∧
      ∀ tile ∈ target.candidates, tile ∈ allowed

/-- Collapsed cells support all candidates of their neighbours. -/
def Settled (rules : Rules κ σ) (board : Board κ σ) : Prop :=
  ∀ id cell, board.get? id = some cell → cell.collapsed = true →
    ∀ slot other, rules.Arc id cell slot other → rules.Serves board cell slot other

theorem Serves.put {rules : Rules κ σ} {board : Board κ σ} {cell target after : Cell κ σ}
    {slot : σ} {id other : κ} (serves : rules.Serves board cell slot other)
    (found : board.get? id = some target)
    (candidates : ∀ tile ∈ after.candidates, tile ∈ target.candidates) :
    rules.Serves (board.put id after) cell slot other := by
  obtain ⟨facing, allowed, present, across, supported⟩ := serves
  by_cases same : id = other
  · subst same
    cases found.symm.trans present
    exact ⟨after, allowed, Board.get?_put_self found after, across, fun tile member =>
      supported tile (candidates tile member)⟩
  · exact ⟨facing, allowed, (Board.get?_put_of_ne same board after).trans present, across,
      supported⟩

end Rules

namespace Search

variable {search after : Search κ σ} {event : Option (Event κ)}
  {touched : κ → Cell κ σ → Prop}

/-- The visit under way holds a check of the neighbour against the present candidates of the
cell. -/
def InHand (search : Search κ σ) (id : κ) (cell : Cell κ σ) (slot : σ) (other : κ) : Prop :=
  ∃ visit check, search.visit = some visit ∧ visit.source = id ∧ check ∈ visit.checks ∧
    check.neighbour = other ∧
      search.rules.support.acrossAny cell.candidates slot = .ok check.allowed

/-- Each touched cell is queued, or each of its neighbours is supported or about to be checked. -/
def Tended (touched : κ → Cell κ σ → Prop) (search : Search κ σ) : Prop :=
  ∀ id cell, search.position.board.get? id = some cell → touched id cell → id ∈ search.pending ∨
    ∀ slot other, search.rules.Arc id cell slot other →
      search.rules.Serves search.position.board cell slot other ∨
        search.InHand id cell slot other

theorem InHand.taken {id other : κ} {cell target : Cell κ σ} {slot : σ} {visit : Visit κ}
    {check : Check κ} {checks : List (Check κ)} (hand : search.InHand id cell slot other)
    (taken : search.Takes visit check checks target) :
    (check.neighbour = other ∧
        search.rules.support.acrossAny cell.candidates slot = .ok check.allowed) ∨
      (search.withChecks visit checks).InHand id cell slot other := by
  obtain ⟨visit', check', visiting, source, member, neighbour, across⟩ := hand
  cases taken.visiting.symm.trans visiting
  rw [taken.listed] at member
  rcases List.mem_cons.mp member with rfl | member
  · exact .inl ⟨neighbour, across⟩
  · exact .inr ⟨_, check', rfl, source, member, neighbour, across⟩

private theorem Tended.attended (tended : search.Tended touched) (kept : search.Keeps after)
    (pending : after.pending = search.pending)
    (hand : ∀ id cell slot other, search.InHand id cell slot other →
      search.rules.Serves search.position.board cell slot other ∨
        after.InHand id cell slot other) :
    after.Tended touched := by
  intro id cell found touching
  rw [kept.position] at found
  rw [kept.position, kept.rules, pending]
  rcases tended id cell found touching with pending | attended
  · exact .inl pending
  · right
    intro slot other arc
    rcases attended slot other arc with serves | held
    · exact .inl serves
    · exact hand id cell slot other held

private theorem Tended.checked {visit : Visit κ} {check : Check κ} {checks : List (Check κ)}
    {target : Cell κ σ} (tended : search.Tended touched)
    (taken : search.Takes visit check checks target)
    (supported : ∀ tile ∈ target.candidates, tile ∈ check.allowed) :
    (search.withChecks visit checks).Tended touched := by
  refine tended.attended ⟨rfl, rfl, rfl, rfl, rfl⟩ rfl ?_
  intro id cell slot other hand
  rcases hand.taken taken with ⟨rfl, across⟩ | hand
  · exact .inl ⟨target, check.allowed, taken.found, across, supported⟩
  · exact .inr hand

private theorem Tended.resumed {visit next : Visit κ} (tended : search.Tended touched)
    (visiting : search.visit = some visit) (source : next.source = visit.source)
    (kept : ∀ check ∈ visit.checks, ∃ check' ∈ next.checks,
      check'.neighbour = check.neighbour ∧ check'.allowed = check.allowed) :
    ({ search with visit := some next } : Search κ σ).Tended touched := by
  refine tended.attended ⟨rfl, rfl, rfl, rfl, rfl⟩ rfl ?_
  rintro id cell slot other ⟨visit', check, visiting', rfl, member, rfl, across⟩
  cases visiting.symm.trans visiting'
  obtain ⟨check', member', neighbour, allowed⟩ := kept check member
  exact .inr ⟨next, check', rfl, source, member', neighbour, allowed ▸ across⟩

theorem Tended.tends (tended : search.Tended touched) (tends : search.Tends event after) :
    after.Tended touched := by
  cases tends with
  | opened unvisited queued present listed =>
    intro id cell found touching
    rcases tended id cell found touching with pending | attended
    · rw [queued] at pending
      rcases List.mem_cons.mp pending with rfl | pending
      · right
        intro slot other arc
        cases found.symm.trans present
        obtain ⟨check, member, neighbour, across⟩ :=
          Check.exists_mem_ofAdjacency listed arc.listed arc.own
        exact .inr ⟨_, check, rfl, rfl, member, neighbour, across⟩
      · exact .inl pending
    · right
      intro slot other arc
      rcases attended slot other arc with serves | ⟨visit, check, visiting, -⟩
      · exact .inl serves
      · cases unvisited.symm.trans visiting
  | announced visiting =>
    exact tended.resumed visiting rfl fun check member => ⟨check, member, rfl, rfl⟩
  | shown visiting =>
    exact tended.resumed visiting rfl fun check member => ⟨check, member, rfl, rfl⟩
  | closed visiting announced empty =>
    refine tended.attended ⟨rfl, rfl, rfl, rfl, rfl⟩ rfl ?_
    rintro id cell slot other ⟨visit', check, visiting', -, member, -⟩
    cases visiting.symm.trans visiting'
    rw [empty] at member
    cases member
  | @previewed visit shown checks target taken =>
    refine tended.resumed taken.visiting rfl fun check member => ?_
    rw [taken.listed] at member
    rcases List.mem_cons.mp member with rfl | member
    · exact ⟨_, List.mem_cons_self, rfl, rfl⟩
    · exact ⟨check, List.mem_cons_of_mem _ member, rfl, rfl⟩
  | passed taken supported => exact tended.checked taken supported
  | unchanged taken undecided supported => exact tended.checked taken supported

/-- The narrowed neighbour is queued, and the check that narrowed it has left only candidates that
it allows. -/
theorem Tended.narrowed {visit : Visit κ} {check : Check κ} {checks : List (Check κ)}
    {target cell : Cell κ σ} (tended : search.Tended touched)
    (taken : search.Takes visit check checks target)
    (restricted : target.restrict (target.candidates.inter check.allowed) = .ok cell) :
    ((search.withChecks visit checks).narrowedTo visit.source check.neighbour cell
      (target.candidates.inter check.allowed)).Tended touched := by
  obtain ⟨within, candidates, -⟩ := Cell.restrict_ok restricted
  have within : ∀ tile ∈ cell.candidates, tile ∈ target.candidates := fun tile member =>
    within tile (candidates ▸ member)
  have allowed : ∀ tile ∈ cell.candidates, tile ∈ check.allowed := by
    intro tile member
    rw [candidates] at member
    exact (Candidates.mem_inter.mp member).2
  intro id source found touching
  by_cases same : check.neighbour = id
  · exact .inl (List.mem_append_right _ (List.mem_singleton.mpr same.symm))
  · have found : search.position.board.get? id = some source :=
      (Board.get?_put_of_ne same search.position.board cell).symm.trans found
    rcases tended id source found touching with pending | attended
    · exact .inl (List.mem_append_left _ pending)
    · right
      intro slot other arc
      rcases attended slot other arc with serves | hand
      · exact .inl (serves.put taken.found within)
      · rcases hand.taken taken with ⟨rfl, across⟩ | hand
        · exact .inl ⟨cell, check.allowed, Board.get?_put_self taken.found cell, across, allowed⟩
        · exact .inr hand

/-- When nothing is left to narrow, all neighbours of touched cells are supported. -/
theorem Tended.serves (tended : search.Tended touched) (idle : search.Idle) {id other : κ}
    {cell : Cell κ σ} {slot : σ} (found : search.position.board.get? id = some cell)
    (touching : touched id cell) (arc : search.rules.Arc id cell slot other) :
    search.rules.Serves search.position.board cell slot other := by
  rcases tended id cell found touching with pending | attended
  · rw [idle.drained] at pending
    cases pending
  · rcases attended slot other arc with serves | ⟨visit, check, visiting, -⟩
    · exact serves
    · cases idle.unvisited.symm.trans visiting

/-- Collapsed cells are tended, and every decision was made when nothing was left to narrow. -/
structure Consistent (search : Search κ σ) : Prop where
  tended : search.Tended fun _ cell => cell.collapsed = true
  chain : search.rules.Chain (fun before entry => ∀ made, entry = .decision made →
    search.rules.Settled before.board) search.trail.newestFirst

theorem Consistent.settled (consistent : search.Consistent) (idle : search.Idle) :
    search.rules.Settled search.position.board := fun _ _ found collapsed _ _ arc =>
  consistent.tended.serves idle found collapsed arc

theorem Consistent.moves (consistent : search.Consistent) (coherent : search.Coherent)
    (moved : search.Moves event after) : after.Consistent := by
  cases moved with
  | tended tends =>
    have kept := tends.keeps
    refine ⟨consistent.tended.tends tends, ?_⟩
    rw [kept.rules, kept.trail]
    exact consistent.chain
  | narrowed taken undecided inspected cut left restricted =>
    refine ⟨consistent.tended.narrowed taken restricted, consistent.chain.cons ?_⟩
    intro made isDecision
    cases isDecision
  | @settled id target cell tile drawn selected chosen observed =>
    have settled := consistent.settled selected.toIdle
    obtain ⟨member, only, -⟩ := Cell.observe_ok observed
    have within : ∀ other ∈ cell.candidates, other ∈ target.candidates := fun other held =>
      (only other).mp held ▸ member
    refine ⟨fun source facing found collapsed => ?_, consistent.chain.cons fun _ _ => ?_⟩
    · by_cases same : id = source
      · exact .inl (List.mem_append_right _ (List.mem_singleton.mpr same.symm))
      · have found : search.position.board.get? source = some facing :=
          (Board.get?_put_of_ne same search.position.board cell).symm.trans found
        refine .inr fun slot other arc => .inl ?_
        exact (settled source facing found collapsed slot other arc).put selected.found within
    · rw [← coherent.position]
      exact settled
  | @undone marks newer older made stuck forced stands =>
    have chain := consistent.chain
    rw [stands] at chain
    refine ⟨fun id cell found collapsed => .inr ?_, chain.before⟩
    intro slot other arc
    exact .inl (chain.follows made rfl id cell found collapsed slot other arc)

theorem Consistent.reaches (consistent : search.Consistent) (coherent : search.Coherent)
    {last : Search κ σ} (reaches : search.Reaches last) : last.Consistent := by
  induction reaches with
  | start => exact consistent
  | move earlier moved ih => exact ih.moves (coherent.reaches earlier) moved

end Search

theorem Constraints.Opens.consistent {τ π : Type} [Key π] {constraints : Constraints κ τ σ π}
    {search : Search κ σ} (opens : constraints.Opens search) : search.Consistent := by
  constructor
  · intro id cell found collapsed
    rw [opens.position] at found
    exact .inl (opens.collapsed id cell found collapsed)
  · rw [opens.trail]
    exact .nil

end Tiling
