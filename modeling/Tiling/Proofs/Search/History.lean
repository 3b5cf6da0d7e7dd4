import Tiling.Proofs.Search.Tree
import Tiling.Proofs.Search.Turns

/-!
The trail as a faithful stack of the run. Each entry says how the position before it became the one
after it, the cells observed on the board are those of the decisions that stand, and what was
counted are the events reported.
-/

namespace Tiling

variable {κ σ : Type} [Key κ] [Key σ]

/-- What a trail says of a change made from a position: which cell changed, and how. -/
inductive Position.Records (before : Position κ σ) : TrailEntry κ σ → Prop where
  | narrowing {made : Narrowing κ σ} {target cell : Cell κ σ}
      (found : before.board.get? made.cell = some target)
      (changed : made.after.board.get? made.cell = some cell)
      (tiles : cell.candidates = made.tiles) (left : ∃ tile, tile ∈ made.tiles)
      (within : ∀ tile ∈ made.tiles, tile ∈ target.candidates)
      (cut : ∃ tile ∈ target.candidates, tile ∉ made.tiles)
      (others : ∀ id, id ≠ made.cell → made.after.board.get? id = before.board.get? id) :
      before.Records (.narrowing made)
  | decision {made : Decision κ σ} {target cell : Cell κ σ}
      (found : before.board.get? made.cell = some target) (undecided : target.collapsed = false)
      (changed : made.after.board.get? made.cell = some cell)
      (only : ∀ tile, tile ∈ cell.candidates ↔ tile = made.tile)
      (tried : made.tile ∈ made.tried)
      (candidates : ∀ tile ∈ made.tried, tile ∈ target.candidates)
      (others : ∀ id, id ≠ made.cell → made.after.board.get? id = before.board.get? id) :
      before.Records (.decision made)

/-- Where no cell was observed at the start, the observed cells are those decided. -/
theorem Rules.Chain.mem_decided_iff {rules : Rules κ σ} {entries : List (TrailEntry κ σ)}
    (chain : rules.Chain Position.Leads entries)
    (start : ∀ id cell, rules.start.board.get? id = some cell → cell.observed = false) (id : κ) :
    id ∈ (Trail.decisions ⟨entries⟩).map (·.cell) ↔
      ∃ cell, (rules.reached entries).board.get? id = some cell ∧ cell.observed = true := by
  induction chain with
  | nil =>
    constructor
    · intro decided
      cases decided
    · rintro ⟨cell, found, observed⟩
      cases (start id cell found).symm.trans observed
  | @cons entry older chain leads ih =>
    have board : (rules.reached (entry :: older)).board = entry.after.board := rfl
    rw [board]
    cases leads with
    | @narrowing made target cell found undecided restricted placed =>
      rw [Trail.decisions_narrowing, ih]
      simp only [TrailEntry.after, placed]
      by_cases same : made.cell = id
      · subst same
        have undecidedYet : ¬∃ cell, (rules.reached older).board.get? made.cell = some cell ∧
            cell.observed = true := by
          rw [← ih]
          intro decided
          obtain ⟨earlier, member, same⟩ := List.mem_map.mp decided
          obtain ⟨own, held, settled⟩ := chain.decided.2 earlier member
          rw [same] at held
          cases found.symm.trans held
          simp [undecided] at settled
        refine ⟨fun decided => absurd decided undecidedYet, ?_⟩
        rintro ⟨after, held, observed⟩
        cases (Board.get?_put_self found cell).symm.trans held
        cases (Cell.observed_of_restrict restricted).symm.trans observed
      · rw [Board.get?_put_of_ne same]
    | @decision made target cell lowest found undecided observed placed =>
      rw [Trail.decisions_decision, List.map_append, List.mem_append, ih]
      simp only [TrailEntry.after, placed]
      by_cases same : made.cell = id
      · subst same
        refine ⟨fun _ => ⟨cell, Board.get?_put_self found cell, ?_⟩, fun _ => .inr (by simp)⟩
        exact Cell.observed_of_observe observed
      · simp [Board.get?_put_of_ne same, Ne.symm same]

theorem Rules.Chain.viable {rules : Rules κ σ} {entries : List (TrailEntry κ σ)}
    (chain : rules.Chain Position.Records entries) (start : rules.start.board.Viable) :
    (rules.reached entries).board.Viable := by
  induction chain with
  | nil => exact start
  | @cons entry older _ records ih =>
    intro id cell found
    have found : entry.after.board.get? id = some cell := found
    cases records with
    | @narrowing made target changed _ present tiles left _ _ others =>
      by_cases same : id = made.cell
      · subst same
        cases present.symm.trans found
        exact tiles ▸ left
      · exact ih id cell ((others id same).symm.trans found)
    | @decision made target changed _ _ present only _ _ others =>
      by_cases same : id = made.cell
      · subst same
        cases present.symm.trans found
        exact ⟨made.tile, (only made.tile).mpr rfl⟩
      · exact ih id cell ((others id same).symm.trans found)

namespace Search

variable {τ π : Type} [Key π] {constraints : Constraints κ τ σ π} {first search : Search κ σ}

/-- Every entry of a trail records the change that led to it. -/
theorem Reaches.records (starts : constraints.Starts first) (reaches : first.Reaches search) :
    search.rules.Chain Position.Records search.trail.newestFirst := by
  induction reaches with
  | start =>
    rw [starts.opens.trail]
    exact .nil
  | move earlier moved ih =>
    have coherent := earlier.coherent starts
    cases moved with
    | tended tends =>
      rw [tends.keeps.rules, tends.keeps.trail]
      exact ih
    | @narrowed visit check checks target cell taken undecided inspected cut left restricted =>
      refine ih.cons ?_
      rw [← coherent.position]
      obtain ⟨within, candidates, -⟩ := Cell.restrict_ok restricted
      obtain ⟨lost, member, unsupported⟩ := cut
      obtain ⟨kept, member', supported⟩ := left
      refine .narrowing taken.found (Board.get?_put_self taken.found cell) candidates ?_ within ?_
        fun id differ => Board.get?_put_of_ne (Ne.symm differ) _ _
      · exact ⟨kept, Candidates.mem_inter.mpr ⟨member', supported⟩⟩
      · exact ⟨lost, member, fun held => unsupported (Candidates.mem_inter.mp held).2⟩
    | @settled id target cell tile drawn selected chosen observed =>
      refine ih.cons ?_
      rw [← coherent.position]
      obtain ⟨member, only, -⟩ := Cell.observe_ok observed
      refine .decision selected.found selected.undecided
        (Board.get?_put_self selected.found cell) only (by simp) ?_
        fun id differ => Board.get?_put_of_ne (Ne.symm differ) _ _
      intro other tried
      rcases Candidates.mem_insert.mp tried with tried | rfl
      · exact coherent.triedOn selected other tried
      · exact member
    | undone stuck forced stands =>
      rw [stands] at ih
      exact ih.before

theorem Reaches.viable (starts : constraints.Starts first) (reaches : first.Reaches search) :
    search.position.board.Viable := by
  rw [(reaches.coherent starts).position]
  apply (reaches.records starts).viable
  rw [reaches.rules]
  exact starts.viable

/-- Each collapse makes a decision, and each rollback takes one back. -/
theorem Reaches.level_add_rollbacks (starts : constraints.Starts first)
    (reaches : first.Reaches search) :
    search.trail.level + search.tally.rollbacks = search.tally.collapses := by
  induction reaches with
  | start =>
    obtain ⟨changed, -, -, uncounted⟩ := starts.begun
    rw [starts.opens.trail, uncounted]
    rfl
  | @move search _ _ earlier moved ih =>
    cases moved with
    | tended tends =>
      rw [tends.keeps.trail, tends.keeps.tally]
      exact ih
    | narrowed =>
      rw [Search.narrowedTo, Trail.level_push_narrowing]
      exact ih
    | settled =>
      change Trail.level ⟨.decision _ :: _⟩ + _ = _ + 1
      rw [Trail.level_decision, Nat.add_right_comm]
      exact congrArg (· + 1) ih
    | @undone marks newer older made stuck forced stands =>
      have level := forced.level made older
      rw [← stands] at level
      change search.trail.level = _ at level
      change Trail.level ⟨older⟩ + (search.tally.rollbacks + 1) = search.tally.collapses
      omega

/-- The trail of a search whose cells were given afresh is a faithful record: of the position, of
each change, of the cells observed and of the events reported. -/
theorem history_faithful (starts : constraints.Starts first)
    (fresh : ∀ id cell, constraints.board.get? id = some cell →
      ∃ name slots candidates, cell = .ofCandidates name slots candidates) (steps : Nat) :
    first.position = first.rules.start ∧
    (first.afterSteps steps).position =
      ((first.afterSteps steps).trail.newest?.map (·.after)).getD first.rules.start ∧
    first.rules.Chain Position.Records (first.afterSteps steps).trail.newestFirst ∧
    ((first.afterSteps steps).trail.decisions.map (·.cell)).Nodup ∧
    (∀ id, id ∈ (first.afterSteps steps).trail.decisions.map (·.cell) ↔
      ∃ cell, (first.afterSteps steps).position.board.get? id = some cell ∧
        cell.observed = true) ∧
    (first.afterSteps steps).trail.decisions.length + (first.afterSteps steps).tally.rollbacks =
      (first.afterSteps steps).tally.collapses ∧
    (first.afterSteps steps).tally = .ofEvents (first.events steps) := by
  obtain ⟨changed, -, -, uncounted⟩ := starts.begun
  obtain ⟨last, reaches, kept, -⟩ := reaches_afterSteps first steps
  have coherent := reaches.coherent starts
  have unobserved : ∀ id cell, first.rules.start.board.get? id = some cell →
      cell.observed = false := by
    intro id cell
    apply starts.unobserved
    intro id cell found
    obtain ⟨name, slots, candidates, rfl⟩ := fresh id cell found
    rfl
  have position := coherent.position
  have chain := coherent.chain
  have records := reaches.records starts
  rw [reaches.rules] at position chain records
  rw [kept.position, kept.trail]
  refine ⟨starts.opens.position, position, records, chain.decided.1, fun id => ?_, ?_,
    tally_afterSteps uncounted steps⟩
  · rw [position]
    exact chain.mem_decided_iff unobserved id
  · rw [kept.tally]
    exact reaches.level_add_rollbacks starts

/-- Two of three decisions stand after one was undone, and their cells are the observed ones. -/
theorem history_faithful_oneSided :
    ∃ first, Constraints.oneSided.Starts first ∧
      (∀ id cell, Constraints.oneSided.board.get? id = some cell →
        ∃ name slots candidates, cell = .ofCandidates name slots candidates) ∧
      first.events 4 = [.collapsed 0 0, .collapsed 1 0, .rolledBack 1, .collapsed 1 1] ∧
      (first.afterSteps 4).tally = { collapses := 3, updates := 0, rollbacks := 1 } ∧
      (first.afterSteps 4).trail.decisions.length = 2 ∧
      ∀ id, id ∈ (first.afterSteps 4).trail.decisions.map (·.cell) ↔
        ∃ cell, (first.afterSteps 4).position.board.get? id = some cell ∧
          cell.observed = true := by
  obtain ⟨first, starts, zeroth, once, twice, thrice⟩ := Constraints.exists_starts_oneSided
  have events : first.events 4 =
      [.collapsed 0 0, .collapsed 1 0, .rolledBack 1, .collapsed 1 1] := by
    simp only [events_succ, zeroth, once, twice, thrice]
    rfl
  have fresh : ∀ id cell, Constraints.oneSided.board.get? id = some cell →
      ∃ name slots candidates, cell = .ofCandidates name slots candidates := by
    intro id cell found
    have listed : (id, cell) ∈ [(0, Cell.ofCandidates 0 [0] (.full 2)),
        (1, Cell.ofCandidates 1 [0] (.full 2))] := Board.get?_eq_some_iff.mp found
    simp only [List.mem_cons, Prod.mk.injEq, List.not_mem_nil, or_false] at listed
    rcases listed with ⟨-, rfl⟩ | ⟨-, rfl⟩ <;> exact ⟨_, _, _, rfl⟩
  obtain ⟨-, -, -, -, observed, balance, tally⟩ := history_faithful starts fresh 4
  rw [events] at tally
  rw [tally] at balance
  exact ⟨first, starts, fresh, events, tally, Nat.succ.inj balance, observed⟩

end Search

end Tiling
