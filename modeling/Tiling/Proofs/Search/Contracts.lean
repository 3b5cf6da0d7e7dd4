import Tiling.Proofs.Search.Failures
import Tiling.Proofs.Search.Termination
import Tiling.Proofs.Starting

/-!
No contract is broken. Whatever a problem is made of, starting it does not fault, and as long as
weighing a tile of the catalog does not, no call of the search does, in any order of calls.
-/

namespace Tiling

variable {κ τ σ π : Type} [Key κ] [Key σ] [Key π]

omit [Key κ] in
/-- So many tiles can be weighed, for every cell. -/
def Weighting.Weighs (weighting : Weighting κ) (tiles : Nat) : Prop :=
  ∀ tile < tiles, ∀ id, ∃ weight, weighting tile id = .ok weight

theorem Problem.weighs_withCatalogWeights (problem : Problem κ τ σ π) (weigh : Weighting κ)
    (weighting : problem.withCatalogWeights.weighting = some weigh) :
    weigh.Weighs problem.catalog.size := by
  intro tile known id
  cases weighting
  have found : problem.catalog.tile? tile = some problem.catalog.tiles[tile] :=
    List.getElem?_eq_getElem known
  simp only [Catalog.weightOf, found]
  exact ⟨_, rfl⟩

theorem Trail.lt_size_of_cutAt {trail rest : Trail κ σ} {place : Nat} {entry : TrailEntry κ σ}
    (cut : trail.cutAt place = .ok (some entry, rest)) : place < trail.size := by
  unfold cutAt at cut
  split at cut
  · rename_i most
    apply Nat.lt_of_le_of_ne most
    rintro rfl
    simp at cut
  · cases cut

/-- A call of a search. -/
inductive Call where
  | step
  | run
  | next

namespace Search

/-- The turn that a call ends with, if it gives one. -/
def call? (search : Search κ σ) : Call → Option (Turn κ σ)
  | .step => some search.step
  | .run => search.run.map (·.2)
  | .next => search.next?

/-- The search after some calls, in order. -/
def afterCalls (search : Search κ σ) : List Call → Search κ σ
  | [] => search
  | call :: calls => (((search.call? call).map (·.after)).getD search).afterCalls calls

variable {constraints : Constraints κ τ σ π} {first search : Search κ σ}

theorem afterSteps_of_finished (finished : search.finished = true) (steps : Nat) :
    search.afterSteps steps = search := by
  induction steps with
  | zero => rfl
  | succ steps ih =>
    rw [afterSteps, ih, step_of_finished finished]

theorem isProgress_of_finished (finished : search.finished = true) :
    search.step.isProgress = false := by
  rw [step_of_finished finished]
  rfl

theorem run_of_finished (finished : search.finished = true) :
    ∃ notices, search.run = some (notices, search.step) := by
  have budget : 0 < search.stepBound := Nat.succ_pos _
  have going : ∀ earlier < 0, (search.afterSteps earlier).step.isProgress = true := nofun
  exact follow_eq _ going (isProgress_of_finished finished) budget #[]

theorem stepBound_afterSteps (first : Search κ σ) (steps : Nat) :
    (first.afterSteps steps).stepBound = first.stepBound := by
  obtain ⟨last, reaches, kept, -⟩ := reaches_afterSteps first steps
  have rules : (first.afterSteps steps).rules = first.rules := kept.rules.trans reaches.rules
  rw [stepBound, stepBound, rules]

/-- From wherever a search goes on it makes progress up to a step within the budget of a run. -/
theorem exists_end (starts : constraints.Starts first) {steps : Nat}
    (unfinished : (first.afterSteps steps).finished = false) :
    ∃ more < (first.afterSteps steps).stepBound,
      (∀ earlier < more, ((first.afterSteps steps).afterSteps earlier).step.isProgress = true) ∧
      ((first.afterSteps steps).afterSteps more).step.isProgress = false := by
  obtain ⟨last, most, going, ended⟩ := exists_last_step starts
  have reached : steps ≤ last := by
    apply Nat.le_of_not_lt
    intro passed
    obtain ⟨more, rfl⟩ := Nat.exists_eq_add_of_lt passed
    have closed : (first.afterSteps (last + 1)).finished = true := finished_of_ended ended
    rw [Nat.add_right_comm, afterSteps_add, afterSteps_of_finished closed, closed] at unfinished
    cases unfinished
  obtain ⟨more, rfl⟩ := Nat.exists_eq_add_of_le reached
  have budget := stepBound_afterSteps first steps
  have enough := rank_lt_stepBound starts
  rw [afterSteps_add] at ended
  refine ⟨more, by omega, fun earlier less => ?_, ended⟩
  rw [← afterSteps_add]
  exact going (steps + earlier) (Nat.add_lt_add_left less steps)

theorem exists_run (starts : constraints.Starts first) (steps : Nat) :
    ∃ notices later,
      (first.afterSteps steps).run = some (notices, (first.afterSteps later).step) := by
  cases finished : (first.afterSteps steps).finished with
  | true =>
    obtain ⟨notices, run⟩ := run_of_finished finished
    exact ⟨notices, steps, run⟩
  | false =>
    obtain ⟨more, enough, going, ended⟩ := exists_end starts finished
    obtain ⟨notices, run⟩ := follow_eq (fun seen turn => seen ++ turn.notices.toArray) going ended
      enough #[]
    refine ⟨notices, steps + more, ?_⟩
    rw [afterSteps_add]
    exact run

/-- Every call ends with a step of the search. -/
theorem exists_step_of_call (starts : constraints.Starts first) {steps : Nat} {call : Call}
    {turn : Turn κ σ} (called : (first.afterSteps steps).call? call = some turn) :
    ∃ later, turn = (first.afterSteps later).step := by
  cases call with
  | step =>
    cases called
    exact ⟨steps, rfl⟩
  | run =>
    obtain ⟨notices, later, run⟩ := exists_run starts steps
    rw [call?, run] at called
    cases called
    exact ⟨later, rfl⟩
  | next =>
    simp only [call?, next?] at called
    split at called
    · cases called
    · cases called
      exact ⟨steps, rfl⟩

theorem exists_afterCalls (starts : constraints.Starts first) (calls : List Call) (steps : Nat) :
    ∃ later, (first.afterSteps steps).afterCalls calls = first.afterSteps later := by
  induction calls generalizing steps with
  | nil => exact ⟨steps, rfl⟩
  | cons call calls ih =>
    rw [afterCalls]
    cases called : (first.afterSteps steps).call? call with
    | none => exact ih steps
    | some turn =>
      obtain ⟨later, rfl⟩ := exists_step_of_call starts called
      exact ih (later + 1)

theorem exists_steps_of_calls (starts : constraints.Starts first) (calls : List Call) :
    ∃ steps, first.afterCalls calls = first.afterSteps steps :=
  exists_afterCalls starts calls 0

/-- What the operations of a move ask for. -/
structure Contracts (search : Search κ σ) : Prop where
  /-- What is chosen for the selected cell is one of the options, a candidate of the cell, and
  within the capacity of every set that it is put in. -/
  chosen : ∀ id cell, search.Selects id cell → ∀ tile drawn,
    choose search.rules.weighting search.rules.draws search.drawn id
      (cell.candidates.diff (search.triedOn id)).toList = .ok (tile, drawn) →
    tile ∈ (cell.candidates.diff (search.triedOn id)).toList ∧ tile ∈ cell.candidates ∧
      tile < cell.candidates.capacity ∧ tile < search.rules.tileCount ∧
      (∃ settled, cell.observe tile = .ok settled) ∧
      ∃ tried, ((search.triedOn id).grow search.rules.tileCount).insertBelow tile = .ok tried
  /-- With options left, one is chosen. -/
  chooses : ∀ id cell, search.Selects id cell →
    (cell.candidates.diff (search.triedOn id)).toList ≠ [] →
    ∃ tile drawn, choose search.rules.weighting search.rules.draws search.drawn id
      (cell.candidates.diff (search.triedOn id)).toList = .ok (tile, drawn)
  /-- A neighbour is narrowed to some of its candidates. -/
  narrowed : ∀ visit check checks target, search.Takes visit check checks target →
    (∀ tile ∈ target.candidates.inter check.allowed, tile ∈ target.candidates) ∧
      ∃ cell, target.restrict (target.candidates.inter check.allowed) = .ok cell
  /-- The trail is cut at one of its entries, and that is a decision. -/
  cut : ∀ index, search.trail.lastDecision? = some index → index < search.trail.size ∧
    ∃ made older, search.trail.cutAt index = .ok (some (.decision made), older)

theorem Reaches.contracts (starts : constraints.Starts first) (reaches : first.Reaches search)
    (weighs : ∀ weigh, first.rules.weighting = some weigh →
      weigh.Weighs constraints.catalog.size) :
    search.Contracts := by
  constructor
  · intro id cell selected tile drawn chosen
    have option := mem_of_choose chosen
    have member := (Candidates.mem_diff.mp (Candidates.mem_toList.mp option)).1
    have below := reaches.known starts selected.found tile member
    have room : tile < ((search.triedOn id).grow search.rules.tileCount).capacity :=
      Nat.lt_of_lt_of_le below (Nat.le_max_right ..)
    exact ⟨option, member, Candidates.lt_capacity member, below, Cell.exists_observe member, _,
      if_pos room⟩
  · intro id cell selected nonempty
    cases chosen : choose search.rules.weighting search.rules.draws search.drawn id
        (cell.candidates.diff (search.triedOn id)).toList with
    | ok picked => exact ⟨picked.1, picked.2, rfl⟩
    | error reason =>
      obtain ⟨weigh, weighting, tile, option, failed⟩ := exists_of_choose_error nonempty chosen
      have member := (Candidates.mem_diff.mp (Candidates.mem_toList.mp option)).1
      rw [reaches.rules] at weighting
      obtain ⟨weight, weighed⟩ := weighs weigh weighting tile
        (reaches.lt_size starts selected.found tile member) id
      cases weighed.symm.trans failed
  · intro visit check checks target taken
    have within : ∀ tile ∈ target.candidates.inter check.allowed, tile ∈ target.candidates :=
      fun tile member => (Candidates.mem_inter.mp member).1
    exact ⟨within, Cell.exists_restrict within⟩
  · intro index found
    obtain ⟨newer, made, older, forced, stands, cut⟩ := Trail.cutAt_lastDecision? found
    exact ⟨Trail.lt_size_of_cutAt cut, made, _, cut⟩

/-- A step breaks no contract, unless weighing a tile of the catalog does. -/
theorem step_faultless (starts : constraints.Starts first)
    (weighs : ∀ weigh, first.rules.weighting = some weigh →
      weigh.Weighs constraints.catalog.size) {steps : Nat}
    {failure : Failure (SearchError κ σ)}
    (failed : (first.afterSteps steps).step.outcome = .error failure) :
    (∀ reason, failure ≠ .fault reason) ∧ ∀ index, failure ≠ .error (.lostDecision index) := by
  cases finished : (first.afterSteps steps).finished with
  | true =>
    rw [step_of_finished finished] at failed
    cases failed
    constructor
    · intro reason same
      cases same
    · intro index same
      cases same
  | false =>
    obtain ⟨last, quiets, fails⟩ := fails_step finished failed
    have reaches := (reaches_of_unfinished finished).quiets quiets
    constructor
    · rintro reason rfl
      obtain ⟨weigh, tile, id, weighting, known, failed⟩ := reaches.weighed_of_fault starts fails
      obtain ⟨weight, weighed⟩ := weighs weigh weighting tile known id
      cases weighed.symm.trans failed
    · rintro index rfl
      cases fails

/-- No problem faults on starting, whatever its settings. Of a search that starts, no call faults or
loses a decision on its trail in any order of calls, a run always ends, and what the operations of
its moves ask for is met, as long as the weights of all tiles of the catalog can be had. Those of
the catalog itself can. -/
theorem faultless (problem : Problem κ τ σ π) :
    (∀ reason, problem.start.outcome ≠ .error (.fault reason)) ∧
    (∀ weigh, problem.withCatalogWeights.weighting = some weigh →
      weigh.Weighs problem.catalog.size) ∧
    ∀ first, problem.start.outcome = .ok first →
      (∀ weigh, problem.weighting = some weigh → weigh.Weighs problem.catalog.size) →
      (∀ calls call turn, (first.afterCalls calls).call? call = some turn →
        ∀ failure, turn.outcome = .error failure →
          (∀ reason, failure ≠ .fault reason) ∧ ∀ index, failure ≠ .error (.lostDecision index)) ∧
      (∀ calls, ∃ turn, (first.afterCalls calls).call? .run = some turn) ∧
      ∀ search, first.Reaches search → search.Contracts := by
  refine ⟨problem.start_ne_fault, problem.weighs_withCatalogWeights, fun first started weighs => ?_⟩
  obtain ⟨constraints, given, catalog⟩ := problem.exists_constraints started
  rw [given] at started
  have starts : constraints.Starts first := ⟨_, _, _, started⟩
  obtain ⟨weighting, -⟩ := Constraints.settings_of_started started
  have weighs : ∀ weigh, first.rules.weighting = some weigh →
      weigh.Weighs constraints.catalog.size := by
    rw [weighting, catalog]
    exact weighs
  refine ⟨fun calls call turn called failure failed => ?_, fun calls => ?_,
    fun search reaches => reaches.contracts starts weighs⟩
  · obtain ⟨steps, same⟩ := exists_afterCalls starts calls 0
    change first.afterCalls calls = _ at same
    rw [same] at called
    obtain ⟨later, rfl⟩ := exists_step_of_call starts called
    exact step_faultless starts weighs failed
  · obtain ⟨steps, same⟩ := exists_afterCalls starts calls 0
    change first.afterCalls calls = _ at same
    obtain ⟨notices, later, run⟩ := exists_run starts steps
    rw [same, call?, run]
    exact ⟨_, rfl⟩

/-- With the weights of the catalog and after calls of two kinds, running the one-sided problem ends
without a fault. -/
theorem faultless_oneSided :
    ∃ first,
      (Constraints.oneSided.problem none (fun _ => 0) false).withCatalogWeights.start.outcome =
        .ok first ∧
      (first.afterSteps 2).step.event? = some (.rolledBack 1) ∧
      (∃ turn, (first.afterCalls [.step, .next]).call? .run = some turn ∧
        ∀ reason, turn.outcome ≠ .error (.fault reason)) ∧
      first.Contracts := by
  have computed : ((Constraints.oneSided.problem
      (some fun tile _ => Constraints.oneSided.catalog.weightOf tile) (fun _ => 0)
        false).start.outcome.toOption.any fun first =>
          (first.turnWithin 8 2).any (·.event? = some (.rolledBack 1))) = true := by decide +kernel
  obtain ⟨first, started, undone⟩ := exists_ok_of_any computed
  obtain ⟨-, weighs, sound⟩ :=
    faultless (Constraints.oneSided.problem none (fun _ => 0) false).withCatalogWeights
  obtain ⟨faults, runs, contracts⟩ := sound first started weighs
  obtain ⟨turn, run⟩ := runs [.step, .next]
  refine ⟨first, started, of_decide_eq_true (of_turnWithin undone), ⟨turn, run, ?_⟩,
    contracts first .start⟩
  intro reason failed
  exact (faults _ _ turn run _ failed).1 reason rfl

end Search

end Tiling
