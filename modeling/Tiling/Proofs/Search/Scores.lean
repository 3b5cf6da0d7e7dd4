import Tiling.Proofs.Entropy
import Tiling.Proofs.Search.Failures
import Tiling.Proofs.Search.History
import Tiling.Proofs.Search.Rank

/-!
Scores and candidates agree. Wherever a search is, each cell has a score for the number of its
candidates, out of the draws taken so far. So a collapsed cell is never selected, and if the draws
keep the scores of undecided cells apart from that of a decided one, an undecided cell always is.
-/

namespace Tiling

variable {κ σ : Type} [Key κ] [Key σ]

/-- Each cell has a score for the number of its candidates, out of so many draws. -/
structure Position.Scored (position : Position κ σ) (draws : Draws) (drawn : Nat) : Prop where
  keys : position.entropy.scores.keys = position.board.cells.keys
  score : ∀ id cell, position.board.get? id = some cell →
    ∃ score, position.entropy.get? id = some score ∧ Entropy.Scores draws drawn cell.count score

namespace Position

variable {position : Position κ σ} {draws : Draws} {drawn : Nat}

theorem Scored.mono (scored : position.Scored draws drawn) {later : Nat} (most : drawn ≤ later) :
    position.Scored draws later := by
  refine ⟨scored.keys, fun id cell found => ?_⟩
  obtain ⟨score, held, scores⟩ := scored.score id cell found
  exact ⟨score, held, scores.mono most⟩

theorem Scored.mem_keys (scored : position.Scored draws drawn) {id : κ} {cell : Cell κ σ}
    (found : position.board.get? id = some cell) : id ∈ position.entropy.scores.keys := by
  rw [scored.keys]
  exact SortedMap.mem_keys_iff.mpr ⟨cell, found⟩

theorem Scored.put (scored : position.Scored draws drawn) {later : Nat} (most : drawn ≤ later)
    {id : κ} {target : Cell κ σ} (found : position.board.get? id = some target) (cell : Cell κ σ)
    {score : Float} (scores : Entropy.Scores draws later cell.count score) (change : Nat) :
    Scored ⟨position.board.put id cell, position.entropy.put id score change⟩ draws later := by
  constructor
  · rw [Entropy.keys_put (scored.mem_keys found), Board.keys_put]
    exact scored.keys
  · intro other after held
    simp only [Entropy.get?_put]
    by_cases same : id = other
    · subst same
      rw [Board.get?_put_self found] at held
      cases held
      exact ⟨score, if_pos rfl, scores⟩
    · rw [Board.get?_put_of_ne same] at held
      rw [if_neg same]
      exact (scored.mono most).score other after held

end Position

namespace Search

variable {search after : Search κ σ} {event : Option (Event κ)}

/-- Wherever a search was or can turn back to, the scores agree with the candidates. -/
structure Scored (search : Search κ σ) : Prop where
  start : search.rules.start.Scored search.rules.draws search.drawn
  trail : ∀ entry ∈ search.trail.newestFirst,
    entry.after.Scored search.rules.draws search.drawn

theorem Scored.reached (scored : search.Scored) {newer older : List (TrailEntry κ σ)}
    (stands : search.trail.newestFirst = newer ++ older) :
    (search.rules.reached older).Scored search.rules.draws search.drawn := by
  cases older with
  | nil => exact scored.start
  | cons entry older =>
    apply scored.trail entry
    rw [stands]
    exact List.mem_append_right _ List.mem_cons_self

theorem Scored.position (scored : search.Scored) (coherent : search.Coherent) :
    search.position.Scored search.rules.draws search.drawn := by
  rw [coherent.position]
  exact scored.reached (List.nil_append _).symm

theorem Scored.push (scored : search.Scored) (rules : after.rules = search.rules)
    (most : search.drawn ≤ after.drawn) {entry : TrailEntry κ σ}
    (trail : after.trail.newestFirst = entry :: search.trail.newestFirst)
    (scores : entry.after.Scored search.rules.draws after.drawn) : after.Scored := by
  constructor
  · rw [rules]
    exact scored.start.mono most
  · intro earlier member
    rw [rules]
    rw [trail] at member
    rcases List.mem_cons.mp member with rfl | member
    · exact scores
    · exact (scored.trail earlier member).mono most

theorem Scored.moves (scored : search.Scored) (coherent : search.Coherent)
    (moved : search.Moves event after) : after.Scored := by
  have position := scored.position coherent
  cases moved with
  | tended tends =>
    have kept := tends.keeps
    constructor
    · rw [kept.rules, kept.drawn]
      exact scored.start
    · rw [kept.rules, kept.drawn, kept.trail]
      exact scored.trail
  | @narrowed visit check checks target cell taken undecided inspected cut left restricted =>
    obtain ⟨-, candidates, -⟩ := Cell.restrict_ok restricted
    refine scored.push rfl (Nat.le_add_right ..) rfl ?_
    apply position.put (Nat.le_add_right ..) taken.found
    rw [Cell.count, candidates]
    exact Entropy.scores_score ..
  | @settled id target cell tile drawn selected chosen observed =>
    have most : search.drawn ≤ drawn := drawn_of_choose chosen ▸ Nat.le_add_right ..
    have single : cell.count = 1 := by
      obtain ⟨-, only, -⟩ := Cell.observe_ok observed
      exact Candidates.count_eq_one_iff.mpr ⟨tile, only⟩
    refine scored.push rfl most rfl ?_
    apply position.put most selected.found
    rw [single]
    exact .single
  | @undone marks newer older made stuck forced stands =>
    refine ⟨scored.start, fun entry member => ?_⟩
    apply scored.trail entry
    rw [stands]
    exact List.mem_append_right _ (List.mem_cons_of_mem _ member)

end Search

variable {τ π : Type} [Key π] {constraints : Constraints κ τ σ π} {first search : Search κ σ}

/-- A search starts with its board scored from the first draw on. -/
theorem Constraints.Starts.scored (starts : constraints.Starts first) : first.Scored := by
  have trail := starts.opens.trail
  obtain ⟨weighting, draws, showing, started⟩ := starts
  obtain ⟨-, source, entropy, drawn⟩ := settings_of_started started
  refine ⟨⟨?_, fun id cell found => ?_⟩, ?_⟩
  · rw [entropy]
    exact Entropy.keys_ofBoard draws _
  · rw [source, entropy, drawn]
    exact Entropy.scores_ofBoard draws found
  · rw [trail]
    nofun

namespace Search

theorem Reaches.scored (starts : constraints.Starts first) (reaches : first.Reaches search) :
    search.Scored := by
  induction reaches with
  | start => exact starts.scored
  | move earlier moved ih => exact ih.moves (earlier.coherent starts) moved

theorem Reaches.scores (starts : constraints.Starts first) (reaches : first.Reaches search) :
    search.position.Scored first.rules.draws search.drawn := by
  rw [← reaches.rules]
  exact (reaches.scored starts).position (reaches.coherent starts)

theorem scored_afterSteps (starts : constraints.Starts first) (steps : Nat) :
    (first.afterSteps steps).position.Scored first.rules.draws (first.afterSteps steps).drawn := by
  obtain ⟨last, reaches, kept, -⟩ := reaches_afterSteps first steps
  rw [kept.position, kept.drawn]
  exact reaches.scores starts

theorem Reaches.count_ne_zero (starts : constraints.Starts first) (reaches : first.Reaches search)
    {id : κ} {cell : Cell κ σ} (found : search.position.board.get? id = some cell) :
    cell.count ≠ 0 := by
  obtain ⟨tile, member⟩ := reaches.viable starts id cell found
  exact Candidates.count_ne_zero_of_mem member

theorem Reaches.count_le (starts : constraints.Starts first) (reaches : first.Reaches search)
    {id : κ} {cell : Cell κ σ} (found : search.position.board.get? id = some cell) :
    cell.count ≤ constraints.catalog.size := by
  exact Candidates.count_le_of_lt (reaches.lt_size starts found)

theorem Reaches.eq_decided (starts : constraints.Starts first) (reaches : first.Reaches search)
    {id : κ} {cell : Cell κ σ} (found : search.position.board.get? id = some cell)
    (collapsed : cell.collapsed = true) :
    search.position.entropy.get? id = some Entropy.decided := by
  obtain ⟨score, held, scores⟩ := (reaches.scores starts).score id cell found
  have single : cell.count = 1 := of_decide_eq_true (cell.collapsed_eq.symm.trans collapsed)
  rw [single] at scores
  rw [held, scores.eq_decided]

theorem Reaches.undecided_of_lowest? (starts : constraints.Starts first)
    (reaches : first.Reaches search) {id : κ}
    (lowest : search.position.entropy.lowest? = some id) :
    ∃ cell, search.position.board.get? id = some cell ∧ cell.collapsed = false := by
  obtain ⟨score, held, differs⟩ := Entropy.score_of_lowest? lowest
  have listed : id ∈ search.position.board.cells.keys := by
    rw [← (reaches.scores starts).keys]
    exact SortedMap.mem_keys_iff.mpr ⟨score, held⟩
  obtain ⟨cell, found⟩ := SortedMap.mem_keys_iff.mp listed
  refine ⟨cell, found, ?_⟩
  cases collapsed : cell.collapsed with
  | false => rfl
  | true =>
    rw [reaches.eq_decided starts found collapsed] at held
    exact absurd (Option.some.inj held).symm differs

/-- With scores kept apart, no cell is left undecided when none can be selected. -/
theorem Reaches.uncollapsed_eq_zero (starts : constraints.Starts first)
    (reaches : first.Reaches search)
    (parts : Entropy.Parts first.rules.draws search.drawn constraints.catalog.size)
    (none : search.position.entropy.lowest? = none) :
    search.position.board.uncollapsed = 0 := by
  apply List.countP_eq_zero.mpr
  intro cell listed
  obtain ⟨⟨id, held⟩, member, rfl⟩ := List.mem_map.mp listed
  have found := Board.get?_eq_some_iff.mpr member
  obtain ⟨score, present, scores⟩ := (reaches.scores starts).score id held found
  have single := (scores.eq_decided_iff parts (reaches.count_ne_zero starts found)
    (reaches.count_le starts found)).mp (Entropy.eq_decided_of_lowest?_eq_none none present)
  have collapsed : held.collapsed = true := held.collapsed_eq.trans (decide_eq_true single)
  simp [collapsed]

/-- What the check of a search asks of a cell and its score. -/
def Agrees (cell : Cell κ σ) (score : Float) : Prop :=
  if cell.collapsed then cell.count = 1 ∧ score = Entropy.decided
  else 1 < cell.count ∧ score.toUInt64.toNat = cell.count

private theorem forM_eq_ok_iff {α ε : Type} {check : α → Except ε Unit} {list : List α} :
    list.forM check = .ok () ↔ ∀ item ∈ list, check item = .ok () := by
  induction list with
  | nil => simp [pure, Except.pure]
  | cons head rest ih =>
    rw [List.forM, List.forall_mem_cons]
    cases checked : check head with
    | error reason => simp [bind, Except.bind]
    | ok nothing => simpa [bind, Except.bind] using ih

/-- The check of a search finds nothing exactly when every cell agrees with its score. -/
theorem verify_eq_ok_iff {search : Search κ σ} :
    search.verify = .ok () ↔ ∀ id cell, search.position.board.get? id = some cell →
      ∃ score, search.position.entropy.get? id = some score ∧ Agrees cell score := by
  simp only [verify, forM_eq_ok_iff, Prod.forall, ← Board.get?_eq_some_iff]
  refine forall_congr' fun id => forall_congr' fun cell => imp_congr_right fun found => ?_
  cases search.position.entropy.get? id with
  | none => simp
  | some score =>
    cases flag : cell.collapsed <;> simp [Agrees, flag, Float.toBits_inj]

theorem Reaches.agrees (starts : constraints.Starts first) (reaches : first.Reaches search)
    (rounds : Entropy.Rounds first.rules.draws search.drawn constraints.catalog.size) {id : κ}
    {cell : Cell κ σ} (found : search.position.board.get? id = some cell) :
    ∃ score, search.position.entropy.get? id = some score ∧ Agrees cell score := by
  obtain ⟨score, held, scores⟩ := (reaches.scores starts).score id cell found
  have nonempty := reaches.count_ne_zero starts found
  have few := reaches.count_le starts found
  refine ⟨score, held, ?_⟩
  have flag : cell.collapsed = decide (cell.count = 1) := cell.collapsed_eq
  unfold Agrees
  by_cases single : cell.count = 1
  · rw [single] at scores
    simp [flag, single, scores.eq_decided]
  · have several : 1 < cell.count := by omega
    simp [flag, single, several, scores.toNat_eq rounds nonempty few]

theorem Reaches.not_exhausted (starts : constraints.Starts first) (reaches : first.Reaches search)
    (parts : Entropy.Parts first.rules.draws search.drawn constraints.catalog.size)
    {failure : Failure (SearchError κ σ)} (fails : search.Fails failure) (uncollapsed : Nat) :
    failure ≠ .error (.exhausted uncollapsed) := by
  intro same
  subst same
  cases fails with
  | exhausted idle none left =>
    have := reaches.uncollapsed_eq_zero starts parts none
    omega

theorem step_not_exhausted (starts : constraints.Starts first) {steps : Nat}
    (parts : Entropy.Parts first.rules.draws (first.afterSteps steps).drawn
      constraints.catalog.size) (uncollapsed : Nat) :
    (first.afterSteps steps).step.outcome ≠ .error (.error (.exhausted uncollapsed)) := by
  intro failed
  cases finished : (first.afterSteps steps).finished with
  | true =>
    rw [step_of_finished finished] at failed
    cases failed
  | false =>
    obtain ⟨last, quiets, fails⟩ := fails_step finished failed
    have reaches := (reaches_of_unfinished finished).quiets quiets
    rw [← quiets.keeps.drawn] at parts
    exact reaches.not_exhausted starts parts fails uncollapsed rfl

/-- After every step of a run the board and the scores have the cells given, each with candidates
of the catalog, and the collapsed cells are those with one candidate. They score exactly one, so
that none is selected. Where the scores of several candidates round down to their number, as they do
for draws from zero up to one, no other cell scores so: the check of the search finds nothing, and
no step runs out of cells to select. -/
theorem bookkeeping {weighting : Option (Weighting κ)} {draws : Draws} {showing : Bool}
    (started : (constraints.problem weighting draws showing).start.outcome = .ok first)
    (steps : Nat) :
    (first.afterSteps steps).position.board.cells.keys = constraints.board.cells.keys ∧
    (first.afterSteps steps).position.entropy.scores.keys = constraints.board.cells.keys ∧
    (∀ id cell, (first.afterSteps steps).position.board.get? id = some cell →
      cell.count ≠ 0 ∧ (∀ tile ∈ cell.candidates, tile < constraints.catalog.size) ∧
      (cell.collapsed = true ↔ cell.count = 1) ∧
      (cell.collapsed = true →
        (first.afterSteps steps).position.entropy.get? id = some Entropy.decided)) ∧
    (∀ id, (first.afterSteps steps).position.entropy.lowest? = some id →
      ∃ cell, (first.afterSteps steps).position.board.get? id = some cell ∧
        cell.collapsed = false) ∧
    (Entropy.Rounds draws (first.afterSteps steps).drawn constraints.catalog.size →
      (∀ id cell, (first.afterSteps steps).position.board.get? id = some cell →
        ((first.afterSteps steps).position.entropy.get? id = some Entropy.decided ↔
          cell.collapsed = true)) ∧
      (first.afterSteps steps).verify = .ok () ∧
      ∀ uncollapsed, (first.afterSteps steps).step.outcome ≠
        .error (.error (.exhausted uncollapsed))) := by
  have starts : constraints.Starts first := ⟨weighting, draws, showing, started⟩
  obtain ⟨-, source, -⟩ := Constraints.settings_of_started started
  subst source
  obtain ⟨last, reaches, kept, -⟩ := reaches_afterSteps first steps
  have scores := reaches.scores starts
  have keys := (reaches.given starts).1
  refine ⟨?_, ?_, fun id cell found => ?_, fun id lowest => ?_, fun rounds => ?_⟩
  · rw [kept.position]
    exact keys
  · rw [kept.position]
    exact scores.keys.trans keys
  · rw [kept.position] at found ⊢
    refine ⟨reaches.count_ne_zero starts found, reaches.lt_size starts found, ?_,
      reaches.eq_decided starts found⟩
    rw [cell.collapsed_eq]
    exact decide_eq_true_iff
  · rw [kept.position] at lowest ⊢
    exact reaches.undecided_of_lowest? starts lowest
  · refine ⟨fun id cell found => ?_, ?_, step_not_exhausted starts rounds.parts⟩
    · rw [kept.position] at found ⊢
      rw [kept.drawn] at rounds
      obtain ⟨score, held, scores⟩ := scores.score id cell found
      rw [held, Option.some.injEq, cell.collapsed_eq, decide_eq_true_iff]
      exact scores.eq_decided_iff rounds.parts (reaches.count_ne_zero starts found)
        (reaches.count_le starts found)
    · rw [verify_eq_ok_iff, kept.position]
      rw [kept.drawn] at rounds
      exact fun id cell => reaches.agrees starts rounds

/-- After a decision was undone, the cells of the one-sided problem agree with their scores. -/
theorem bookkeeping_oneSided :
    ∃ first, (Constraints.oneSided.problem none (fun _ => 0) false).start.outcome = .ok first ∧
      (first.afterSteps 2).step.event? = some (.rolledBack 1) ∧
      Entropy.Rounds (fun _ => 0) (first.afterSteps 3).drawn Constraints.oneSided.catalog.size ∧
      (first.afterSteps 3).verify = .ok () ∧
      (first.afterSteps 3).position.entropy.scores.keys = [0, 1] := by
  have computed : ((Constraints.oneSided.problem none (fun _ => 0) false).start.outcome.toOption.any
      fun first => (first.turnWithin 8 2).any (·.event? = some (.rolledBack 1))) = true := by
    decide +kernel
  obtain ⟨first, started, undone⟩ := exists_ok_of_any computed
  have rounds : Entropy.Rounds (fun _ => 0) (first.afterSteps 3).drawn
      Constraints.oneSided.catalog.size :=
    Entropy.rounds_of_unit (fun _ _ => by decide +kernel) (by decide +kernel)
  obtain ⟨-, scored, -, -, consistent⟩ := bookkeeping started 3
  obtain ⟨-, verified, -⟩ := consistent rounds
  exact ⟨first, started, of_decide_eq_true (of_turnWithin undone), rounds, verified, scored⟩

end Search

end Tiling
