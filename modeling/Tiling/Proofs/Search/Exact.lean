import Tiling.Proofs.Search.Trail

/-!
No solution is lost and none appears. A narrowing takes away tiles that no solution on the board
has, so the solutions on the board are those that agree with the decisions. A tile tried on a cell
and given up is one that no solution on the board before has there.
-/

namespace Tiling

variable {κ τ σ π : Type} [Key κ] [Key σ] [Key π] {constraints : Constraints κ τ σ π}

/-- Why a change loses no solution: a narrowing leaves the tile of each, and the tiles given up for
a decision are those of none. -/
inductive Constraints.Justifies (constraints : Constraints κ τ σ π) (before : Position κ σ) :
    TrailEntry κ σ → Prop where
  | narrowing {made : Narrowing κ σ}
      (kept : ∀ tiles, constraints.Solution tiles → before.board.Holds tiles →
        tiles made.cell ∈ made.tiles) :
      constraints.Justifies before (.narrowing made)
  | decision {made : Decision κ σ}
      (refuted : ∀ tiles, constraints.Solution tiles → before.board.Holds tiles →
        tiles made.cell ∈ made.tried → tiles made.cell = made.tile) :
      constraints.Justifies before (.decision made)

namespace Trail

theorem agrees_decision {made : Decision κ σ} {older : List (TrailEntry κ σ)} {tiles : κ → Nat} :
    Agrees ⟨.decision made :: older⟩ tiles ↔
      Agrees ⟨older⟩ tiles ∧ tiles made.cell = made.tile := by
  simp only [Agrees, decisions_decision, List.mem_append, List.mem_singleton]
  constructor
  · intro agrees
    exact ⟨fun earlier member => agrees earlier (.inl member), agrees made (.inr rfl)⟩
  · rintro ⟨agrees, same⟩ other (member | rfl)
    · exact agrees other member
    · exact same

theorem agrees_narrowing {made : Narrowing κ σ} {older : List (TrailEntry κ σ)}
    {tiles : κ → Nat} :
    Agrees ⟨.narrowing made :: older⟩ tiles ↔ Agrees ⟨older⟩ tiles := by
  simp only [Agrees, decisions_narrowing]

end Trail

namespace Position.Leads

theorem holds_narrowing {before : Position κ σ} {made : Narrowing κ σ}
    (leads : before.Leads (.narrowing made)) (tiles : κ → Nat) :
    made.after.board.Holds tiles ↔
      before.board.Holds tiles ∧ tiles made.cell ∈ made.tiles := by
  cases leads with
  | narrowing found undecided restricted board =>
    obtain ⟨within, candidates, -⟩ := Cell.restrict_ok restricted
    rw [board, Board.holds_put found, candidates]
    intro tile member
    exact within tile (candidates ▸ member)

theorem holds_decision {before : Position κ σ} {made : Decision κ σ}
    (leads : before.Leads (.decision made)) (tiles : κ → Nat) :
    made.after.board.Holds tiles ↔ before.board.Holds tiles ∧ tiles made.cell = made.tile := by
  cases leads with
  | decision lowest found undecided observed board =>
    obtain ⟨member, only, -⟩ := Cell.observe_ok observed
    rw [board, Board.holds_put found, only]
    intro tile held
    exact (only tile).mp held ▸ member

end Position.Leads

/-- The solutions on the board that a trail has led to are those that agree with its decisions. -/
theorem Constraints.Solution.holds_iff_agrees {tiles : κ → Nat}
    (solution : constraints.Solution tiles) {rules : Rules κ σ}
    (start : rules.start.board.Holds tiles) {entries : List (TrailEntry κ σ)}
    (chain : rules.Chain Position.Leads entries)
    (justified : rules.Chain constraints.Justifies entries) :
    (rules.reached entries).board.Holds tiles ↔ Trail.Agrees ⟨entries⟩ tiles := by
  induction chain with
  | nil =>
    refine ⟨fun _ made member => ?_, fun _ => start⟩
    cases member
  | @cons entry older chain leads ih =>
    cases justified with
    | cons justified justifies =>
      cases justifies with
      | narrowing kept =>
        rw [Trail.agrees_narrowing, ← ih justified]
        refine (leads.holds_narrowing tiles).trans ⟨And.left, fun holds => ?_⟩
        exact ⟨holds, kept tiles solution holds⟩
      | decision refuted =>
        rw [Trail.agrees_decision, ← ih justified]
        exact leads.holds_decision tiles

namespace Search

variable {first search after : Search κ σ} {event : Option (Event κ)}

/-- Nothing that a search has done or is about to do loses a solution. -/
structure Justified (constraints : Constraints κ τ σ π) (search : Search κ σ) : Prop where
  chain : search.rules.Chain constraints.Justifies search.trail.newestFirst
  checks : ∀ visit, search.visit = some visit → ∀ check ∈ visit.checks, ∀ tiles,
    constraints.Solution tiles → search.position.board.Holds tiles →
    (search.position.board.get? check.neighbour).isSome = true →
    tiles check.neighbour ∈ check.allowed
  retried : ∀ retry, search.retry = some retry → ∀ tiles, constraints.Solution tiles →
    search.position.board.Holds tiles → tiles retry.cell ∉ retry.tried

/-- No solution is on the board of a search that is stuck. -/
theorem Stuck.not_holds {marks : Option (Marks κ)} (stuck : search.Stuck marks)
    (justified : search.Justified constraints) {tiles : κ → Nat}
    (solution : constraints.Solution tiles) : ¬search.position.board.Holds tiles := by
  intro holds
  cases stuck with
  | @conflict visit check checks target taken unsupported =>
    refine unsupported _ (holds _ target taken.found) ?_
    exact justified.checks visit taken.visiting check taken.mem tiles solution holds
      (Option.isSome_of_eq_some taken.found)
  | @spent id cell selected tried =>
    obtain ⟨retry, waiting, rfl, refuted⟩ :=
      mem_triedOn.mp (tried _ (holds id cell selected.found))
    exact justified.retried retry waiting tiles solution holds refuted

private theorem Reaches.opened (starts : constraints.Starts first)
    (reaches : first.Reaches search) {id : κ} {cell : Cell κ σ} {checks : List (Check κ)}
    (found : search.position.board.get? id = some cell)
    (listed : Check.ofAdjacency search.rules.support cell (search.rules.adjacency id) =
      .ok checks) {check : Check κ} (member : check ∈ checks) {tiles : κ → Nat}
    (solution : constraints.Solution tiles) (holds : search.position.board.Holds tiles)
    (present : (search.position.board.get? check.neighbour).isSome = true) :
    tiles check.neighbour ∈ check.allowed := by
  obtain ⟨keys, given⟩ := reaches.given starts
  obtain ⟨cell', found', slots, -⟩ := given id cell found
  obtain ⟨slot, arc, own, across⟩ := Check.arc_of_mem_ofAdjacency listed member
  rw [reaches.rules, starts.opens.adjacency] at arc
  rw [reaches.rules, starts.opens.support] at across
  have meets := solution.neighbour id cell' found' slot check.neighbour arc (slots ▸ own)
    ((Board.isSome_of_keys_eq keys).mp present)
  exact (Support.mem_acrossAny_ofCatalog across _).mpr ⟨tiles id, holds id cell found, meets⟩

private theorem Justified.tends (justified : search.Justified constraints)
    (starts : constraints.Starts first) (reaches : first.Reaches search)
    (tends : search.Tends event after) : after.Justified constraints := by
  have kept := tends.keeps
  refine ⟨?_, ?_, ?_⟩
  · rw [kept.rules, kept.trail]
    exact justified.chain
  · rw [kept.position]
    cases tends with
    | opened unvisited queued found listed =>
      intro visit visiting check member tiles solution holds present
      cases visiting
      exact reaches.opened starts found listed member solution holds present
    | announced visiting fresh plain | shown visiting fresh plain =>
      intro visit visiting' check member
      cases visiting'
      exact justified.checks _ visiting check member
    | closed visiting announced empty =>
      intro visit visiting'
      cases visiting'
    | @previewed visit shown checks target taken =>
      intro visit' visiting check member
      cases visiting
      rcases List.mem_cons.mp member with rfl | member
      · exact justified.checks visit taken.visiting shown taken.mem
      · exact justified.checks visit taken.visiting check (taken.mem_of_mem member)
    | passed taken | unchanged taken =>
      intro visit visiting check member
      cases visiting
      exact justified.checks _ taken.visiting check (taken.mem_of_mem member)
  · rw [kept.position, tends.retry]
    exact justified.retried

private theorem Justified.narrowed (justified : search.Justified constraints)
    (coherent : search.Coherent) {visit : Visit κ} {check : Check κ} {checks : List (Check κ)}
    {target cell : Cell κ σ} (taken : search.Takes visit check checks target)
    (restricted : target.restrict (target.candidates.inter check.allowed) = .ok cell) :
    ((search.withChecks visit checks).narrowedTo visit.source check.neighbour cell
      (target.candidates.inter check.allowed)).Justified constraints := by
  obtain ⟨within, candidates, -⟩ := Cell.restrict_ok restricted
  have held : ∀ tiles, (search.position.board.put check.neighbour cell).Holds tiles →
      search.position.board.Holds tiles := by
    intro tiles holds
    refine ((Board.holds_put taken.found ?_ tiles).mp holds).1
    exact fun tile member => within tile (candidates ▸ member)
  refine ⟨justified.chain.cons (.narrowing fun tiles solution holds => ?_), ?_, ?_⟩
  · rw [← coherent.position] at holds
    refine Candidates.mem_inter.mpr ⟨holds _ target taken.found, ?_⟩
    exact justified.checks visit taken.visiting check taken.mem tiles solution holds
      (Option.isSome_of_eq_some taken.found)
  · intro visit' visiting other member tiles solution holds present
    cases visiting
    refine justified.checks visit taken.visiting other (taken.mem_of_mem member) tiles solution
      (held tiles holds) ?_
    exact (Board.isSome_of_keys_eq (Board.keys_put _ _ _)).mp present
  · intro retry waiting
    obtain ⟨target, selected, -⟩ := coherent.retried retry waiting
    exact absurd selected.toIdle taken.not_idle

private theorem Justified.undone (justified : search.Justified constraints)
    (coherent : search.Coherent)
    (start : ∀ tiles, constraints.Solution tiles → search.rules.start.board.Holds tiles)
    {marks : Option (Marks κ)} {newer older : List (TrailEntry κ σ)} {made : Decision κ σ}
    (stuck : search.Stuck marks) (forced : Trail.Forced newer)
    (stands : search.trail.newestFirst = newer ++ .decision made :: older) :
    (search.undone marks made older).Justified constraints := by
  have chain : search.rules.Chain Position.Leads (newer ++ .decision made :: older) :=
    stands ▸ coherent.chain
  have justifies : search.rules.Chain constraints.Justifies (newer ++ .decision made :: older) :=
    stands ▸ justified.chain
  refine ⟨justifies.before, fun visit visiting => (by cases visiting), ?_⟩
  intro retry waiting tiles solution holds tried
  cases waiting
  cases justifies.follows with
  | decision refuted =>
    have same := refuted tiles solution holds tried
    apply stuck.not_holds justified solution
    rw [coherent.position, stands, solution.holds_iff_agrees (start tiles solution) chain
      justifies, Trail.Agrees, Trail.decisions_append, forced.decisions, List.append_nil]
    apply Trail.agrees_decision.mpr
    refine ⟨?_, same⟩
    exact (solution.holds_iff_agrees (start tiles solution) chain.before justifies.before).mp holds

theorem Justified.moves (justified : search.Justified constraints)
    (starts : constraints.Starts first) (reaches : first.Reaches search)
    (moved : search.Moves event after) : after.Justified constraints := by
  have coherent := reaches.coherent starts
  cases moved with
  | tended tends => exact justified.tends starts reaches tends
  | narrowed taken undecided inspected cut left restricted =>
    exact justified.narrowed coherent taken restricted
  | settled selected chosen observed =>
    refine ⟨justified.chain.cons (.decision fun tiles solution holds tried => ?_), ?_, ?_⟩
    · rw [← coherent.position] at holds
      rcases Candidates.mem_insert.mp tried with tried | same
      · obtain ⟨retry, waiting, rfl, member⟩ := mem_triedOn.mp tried
        exact absurd member (justified.retried retry waiting tiles solution holds)
      · exact same
    · intro visit visiting
      cases selected.unvisited.symm.trans visiting
    · intro retry waiting
      cases waiting
  | undone stuck forced stands =>
    refine justified.undone coherent (fun tiles solution => ?_) stuck forced stands
    rw [reaches.rules]
    exact solution.holds starts.opens.trimmed

theorem Reaches.justified (starts : constraints.Starts first) (reaches : first.Reaches search) :
    search.Justified constraints := by
  have opens := starts.opens
  induction reaches with
  | start =>
    refine ⟨?_, fun visit visiting => ?_, fun retry waiting => ?_⟩
    · rw [opens.trail]
      exact .nil
    · cases opens.visit.symm.trans visiting
    · cases opens.retry.symm.trans waiting
  | move earlier moved ih => exact ih.moves starts earlier moved

/-- The solutions on the board are those that agree with the decisions. -/
theorem Reaches.holds_iff_agrees (starts : constraints.Starts first)
    (reaches : first.Reaches search) {tiles : κ → Nat} (solution : constraints.Solution tiles) :
    search.position.board.Holds tiles ↔ search.trail.Agrees tiles := by
  have coherent := reaches.coherent starts
  have start : search.rules.start.board.Holds tiles := by
    rw [reaches.rules]
    exact solution.holds starts.opens.trimmed
  rw [coherent.position]
  exact solution.holds_iff_agrees start coherent.chain (reaches.justified starts).chain

end Search

end Tiling
